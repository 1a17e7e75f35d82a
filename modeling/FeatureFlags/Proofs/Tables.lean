import FeatureFlags.Json.SortedTable
import Mathlib.Data.List.Basic

/-!
# Laws of named entries

What `collapse` makes of entries that repeat a name: the names in the order of
their first uses, each with the value of its last use.  Entries that repeat no
name stay as they are.  Sorted or not, a table made of entries has the names of
the entries and holds some of them.
-/

namespace FeatureFlags

namespace Entries

variable {α β : Type}

@[simp] theorem names_nil : names ([] : Entries α) = [] := rfl

@[simp] theorem names_cons (entry : String × α) (rest : Entries α) :
    names (entry :: rest) = entry.1 :: names rest := rfl

@[simp] theorem names_append (front back : Entries α) :
    names (front ++ back) = names front ++ names back := List.map_append

@[simp] theorem names_mapValues (f : α → β) (entries : Entries α) :
    (entries.mapValues f).names = entries.names := by
  simp [names, mapValues]

theorem mapValues_eq_self_iff {f : α → α} {entries : Entries α} :
    entries.mapValues f = entries ↔ ∀ entry ∈ entries, f entry.2 = entry.2 := by
  induction entries with
  | nil => simp [mapValues]
  | cons entry rest ih =>
      rw [List.forall_mem_cons, ← ih]
      simp [mapValues, Prod.ext_iff]

theorem value?_put_self (name : String) (value : α) (entries : Entries α) :
    value? name (put name value entries) = some value := by
  rw [value?_put, if_pos rfl]

theorem value?_put_of_ne {name wanted : String} (h : name ≠ wanted) (value : α)
    (entries : Entries α) :
    value? wanted (put name value entries) = value? wanted entries := by
  rw [value?_put, if_neg h]

theorem put_ne_nil (name : String) (value : α) (entries : Entries α) :
    put name value entries ≠ [] := by
  intro empty
  have found := value?_put_self name value entries
  simp [empty, value?] at found

theorem value?_append (name : String) (front back : Entries α) :
    value? name (front ++ back) = (value? name front).or (value? name back) := by
  induction front with
  | nil => simp [value?]
  | cons entry front ih =>
      obtain ⟨other, value⟩ := entry
      by_cases h : other = name <;> simp [value?, h, ih]

theorem value?_mapValues (name : String) (f : α → β) (entries : Entries α) :
    value? name (entries.mapValues f) = (value? name entries).map f := by
  induction entries with
  | nil => rfl
  | cons entry rest ih =>
      obtain ⟨other, value⟩ := entry
      by_cases h : other = name
      · simp [mapValues, value?, h]
      · simpa [mapValues, value?, h] using ih

theorem mem_of_value?_eq_some {name : String} {value : α}
    {entries : Entries α} (h : value? name entries = some value) :
    (name, value) ∈ entries := by
  induction entries with
  | nil => simp [value?] at h
  | cons entry rest ih =>
      obtain ⟨other, old⟩ := entry
      rw [value?] at h
      split at h
      · rename_i same
        simp_all
      · exact List.mem_cons_of_mem _ (ih h)

theorem value?_eq_none_iff {name : String} {entries : Entries α} :
    value? name entries = none ↔ name ∉ entries.names := by
  induction entries with
  | nil => simp [value?]
  | cons entry rest ih =>
      obtain ⟨other, old⟩ := entry
      by_cases same : other = name
      · simp [value?, same]
      · simp [value?, same, ih, Ne.symm same]

theorem value?_eq_some_iff {name : String} {value : α} {entries : Entries α}
    (h : entries.names.Nodup) :
    value? name entries = some value ↔ (name, value) ∈ entries := by
  constructor
  · exact mem_of_value?_eq_some
  · intro given
    induction entries with
    | nil => simp at given
    | cons entry rest ih =>
        rw [names_cons, List.nodup_cons] at h
        rcases List.mem_cons.mp given with rfl | given
        · simp [value?]
        · have known : name ∈ names rest := List.mem_map_of_mem given
          have differs : entry.1 ≠ name := fun same => h.1 (same ▸ known)
          rw [value?, if_neg differs, ih h.2 given]

theorem filterMap_value?_names {entries : Entries α}
    (h : entries.names.Nodup) :
    (entries.names.filterMap fun name =>
      (value? name entries).map (name, ·)) = entries := by
  induction entries with
  | nil => rfl
  | cons entry rest ih =>
      obtain ⟨first, value⟩ := entry
      simp only [names_cons, List.nodup_cons] at h
      have others : ∀ name ∈ names rest,
          (value? name ((first, value) :: rest)).map (name, ·) =
            (value? name rest).map (name, ·) := by
        intro name hname
        have differs : first ≠ name := fun same => h.1 (same ▸ hname)
        simp [value?, differs]
      have tail := (List.filterMap_congr others).trans (ih h.2)
      simp only [names_cons, List.filterMap_cons, value?, if_true,
        Option.map_some]
      exact congrArg _ tail

theorem flatMap_put_congr {f : String × α → List β} {name : String}
    {value other : α} (same : f (name, value) = f (name, other))
    (entries : Entries α) :
    (put name value entries).flatMap f = (put name other entries).flatMap f := by
  induction entries with
  | nil => simp [put, same]
  | cons entry rest ih =>
      obtain ⟨first, old⟩ := entry
      by_cases h : first = name
      · simp [put, h, same]
      · simp [put, h, ih]

/-! ## First places and last values -/

/-- Each name where it is first used, with the value of its last use. -/
def lastValues (entries : Entries α) : Entries α :=
  entries.names.eraseDups.filterMap fun name =>
    (value? name entries.reverse).map (name, ·)

theorem names_foldl_put (kept entries : Entries α) :
    names (entries.foldl (fun kept entry => put entry.1 entry.2 kept) kept) =
      kept.names ++ (entries.names.filter (· ∉ kept.names)).eraseDups := by
  induction entries generalizing kept with
  | nil => simp
  | cons entry rest ih =>
      obtain ⟨name, value⟩ := entry
      rw [List.foldl_cons, ih, names_put]
      by_cases known : name ∈ kept.names
      · simp [known]
      · have fresh : (names rest).filter (· ∉ kept.names ++ [name]) =
            ((names rest).filter (· ∉ kept.names)).filter (!· == name) := by
          rw [List.filter_filter]
          apply List.filter_congr
          intro other _
          by_cases same : other = name <;> simp [same]
        rw [if_neg known, fresh, names_cons,
          List.filter_cons_of_pos (by simpa using known), List.eraseDups_cons]
        simp

theorem value?_foldl_put (name : String) (kept entries : Entries α) :
    value? name (entries.foldl (fun kept entry => put entry.1 entry.2 kept)
      kept) = (value? name entries.reverse).or (value? name kept) := by
  induction entries generalizing kept with
  | nil => simp [value?]
  | cons entry rest ih =>
      obtain ⟨other, value⟩ := entry
      rw [List.foldl_cons, ih, value?_put, List.reverse_cons, value?_append,
        Option.or_assoc]
      by_cases h : other = name <;> simp [value?, h]

@[simp] theorem names_collapse (entries : Entries α) :
    entries.collapse.names = entries.names.eraseDups := by
  rw [collapse, names_foldl_put, List.filter_eq_self.mpr (by simp)]
  simp

theorem value?_collapse (name : String) (entries : Entries α) :
    value? name entries.collapse = value? name entries.reverse := by
  simp [collapse, value?_foldl_put, value?]

theorem mem_collapse_iff {name : String} {value : α} {entries : Entries α} :
    (name, value) ∈ entries.collapse ↔
      value? name entries.reverse = some value := by
  rw [← value?_collapse, value?_eq_some_iff entries.nodup_names_collapse]

theorem collapse_eq_lastValues (entries : Entries α) :
    entries.collapse = entries.lastValues := by
  rw [← filterMap_value?_names entries.nodup_names_collapse, names_collapse,
    lastValues]
  simp only [value?_collapse]

theorem mem_names_collapse {name : String} {entries : Entries α} :
    name ∈ entries.collapse.names ↔ name ∈ entries.names := by
  rw [names_collapse, List.mem_eraseDups]

theorem mem_of_mem_collapse {entry : String × α} {entries : Entries α}
    (h : entry ∈ entries.collapse) : entry ∈ entries := by
  rw [collapse_eq_lastValues, lastValues, List.mem_filterMap] at h
  obtain ⟨name, -, found⟩ := h
  obtain ⟨value, last, rfl⟩ := Option.map_eq_some_iff.mp found
  simpa using mem_of_value?_eq_some last

/-! ## Entries sorted by name -/

theorem mem_names_putSorted_iff {name other : String} {value : α}
    {entries : Entries α} :
    other ∈ (putSorted name value entries).names ↔
      other = name ∨ other ∈ entries.names := by
  induction entries with
  | nil => simp [putSorted]
  | cons entry rest ih =>
      obtain ⟨first, old⟩ := entry
      simp only [putSorted]
      split
      · simp
      · split
        · rename_i same
          simp [same]
        · simp only [names_cons, List.mem_cons, ih]
          exact or_left_comm

theorem mem_of_mem_putSorted {name : String} {value : α} {entry : String × α}
    {entries : Entries α} (h : entry ∈ putSorted name value entries) :
    entry = (name, value) ∨ entry ∈ entries := by
  induction entries with
  | nil => simpa [putSorted] using h
  | cons first rest ih =>
      simp only [putSorted] at h
      grind

theorem mem_names_foldl_putSorted {name : String} {entries : Entries α}
    (kept : Entries α) :
    name ∈ names (entries.foldl
        (fun kept entry => putSorted entry.1 entry.2 kept) kept) ↔
      name ∈ kept.names ∨ name ∈ entries.names := by
  induction entries generalizing kept with
  | nil => simp
  | cons entry rest ih =>
      rw [List.foldl_cons, ih, mem_names_putSorted_iff, names_cons,
        List.mem_cons]
      tauto

theorem mem_of_mem_foldl_putSorted {entry : String × α} {entries : Entries α}
    (kept : Entries α)
    (h : entry ∈ entries.foldl
      (fun kept entry => putSorted entry.1 entry.2 kept) kept) :
    entry ∈ kept ∨ entry ∈ entries := by
  induction entries generalizing kept with
  | nil => exact .inl h
  | cons first rest ih =>
      rcases ih _ h with h | h
      · rcases mem_of_mem_putSorted h with rfl | h
        · exact .inr (by simp)
        · exact .inl h
      · exact .inr (List.mem_cons_of_mem _ h)

theorem perm_putSorted {name : String} {entries : Entries α}
    (fresh : name ∉ entries.names) (value : α) :
    (putSorted name value entries).Perm ((name, value) :: entries) := by
  induction entries with
  | nil => exact .refl _
  | cons entry rest ih =>
      obtain ⟨other, old⟩ := entry
      simp only [names_cons, List.mem_cons, not_or] at fresh
      rw [putSorted, if_neg (Ne.symm fresh.1)]
      split
      · exact .refl _
      · exact ((ih fresh.2).cons _).trans (.swap _ _ _)

theorem perm_foldl_putSorted {kept entries : Entries α}
    (h : (names (kept ++ entries)).Nodup) :
    (entries.foldl (fun kept entry => putSorted entry.1 entry.2 kept)
      kept).Perm (kept ++ entries) := by
  induction entries generalizing kept with
  | nil => simp
  | cons entry rest ih =>
      obtain ⟨name, value⟩ := entry
      rw [names_append, names_cons] at h
      have fresh : name ∉ kept.names := fun known =>
        (List.nodup_append.mp h).2.2 name known name (by simp) rfl
      have step := perm_putSorted fresh value
      have moved : (putSorted name value kept ++ rest).Perm
          (kept ++ (name, value) :: rest) :=
        (step.append_right rest).trans List.perm_middle.symm
      rw [List.foldl_cons]
      refine (ih ?_).trans moved
      exact (moved.map Prod.fst).nodup_iff.mpr (by simpa [names] using h)

theorem putSorted_of_last {name : String} {entries : Entries α}
    (h : ∀ other ∈ entries.names, other < name) (value : α) :
    putSorted name value entries = entries ++ [(name, value)] := by
  induction entries with
  | nil => rfl
  | cons entry rest ih =>
      obtain ⟨other, old⟩ := entry
      rw [names_cons, List.forall_mem_cons] at h
      have before : ¬ name < other := fun later =>
        String.lt_irrefl name (String.lt_trans later h.1)
      have differs : other ≠ name := by
        rintro rfl
        exact before h.1
      rw [putSorted, if_neg before, if_neg differs, ih h.2]
      rfl

theorem foldl_putSorted_of_ascending {kept entries : Entries α}
    (h : Ascending (kept ++ entries)) :
    entries.foldl (fun kept entry => putSorted entry.1 entry.2 kept) kept =
      kept ++ entries := by
  induction entries generalizing kept with
  | nil => simp
  | cons entry rest ih =>
      obtain ⟨name, value⟩ := entry
      have last : ∀ other ∈ kept.names, other < name := by
        rw [Ascending, names_append, List.pairwise_append] at h
        intro other hother
        exact h.2.2 other hother name (by simp)
      rw [List.foldl_cons, putSorted_of_last last, ih (by simpa using h)]
      simp

theorem put_of_notMem {name : String} {entries : Entries α}
    (h : name ∉ entries.names) (value : α) :
    put name value entries = entries ++ [(name, value)] := by
  induction entries with
  | nil => rfl
  | cons entry rest ih =>
      obtain ⟨other, old⟩ := entry
      simp only [names_cons, List.mem_cons, not_or] at h
      simp [put, Ne.symm h.1, ih h.2]

theorem foldl_put_of_nodup {kept entries : Entries α}
    (h : (names (kept ++ entries)).Nodup) :
    entries.foldl (fun kept entry => put entry.1 entry.2 kept) kept =
      kept ++ entries := by
  induction entries generalizing kept with
  | nil => simp
  | cons entry rest ih =>
      obtain ⟨name, value⟩ := entry
      have fresh : name ∉ kept.names := by
        rw [names_append] at h
        intro known
        exact (List.nodup_append.mp h).2.2 name known name (by simp) rfl
      rw [List.foldl_cons, put_of_notMem fresh, ih (by simpa using h)]
      simp

theorem put_mapValues (f : α → β) (name : String) (value : α)
    (entries : Entries α) :
    put name (f value) (entries.mapValues f) =
      (put name value entries).mapValues f := by
  induction entries with
  | nil => rfl
  | cons entry rest ih =>
      obtain ⟨other, old⟩ := entry
      by_cases same : other = name
      · simp [put, mapValues, same]
      · simpa [put, mapValues, same] using ih

theorem collapse_mapValues (f : α → β) (entries : Entries α) :
    (entries.mapValues f).collapse = entries.collapse.mapValues f := by
  have folded (kept : Entries α) :
      (entries.mapValues f).foldl
          (fun kept entry => put entry.1 entry.2 kept) (kept.mapValues f) =
        (entries.foldl
          (fun kept entry => put entry.1 entry.2 kept) kept).mapValues f := by
    induction entries generalizing kept with
    | nil => rfl
    | cons entry rest ih =>
        have step := put_mapValues f entry.1 entry.2 kept
        have others := ih (put entry.1 entry.2 kept)
        rw [← step] at others
        exact others
  exact folded []

theorem collapse_of_nodup {entries : Entries α} (h : entries.names.Nodup) :
    entries.collapse = entries := by
  rw [collapse, foldl_put_of_nodup (by simpa using h), List.nil_append]

end Entries

namespace Table

variable {α β : Type}

def mapValues (f : α → β) (table : Table α) : Table β :=
  ⟨table.entries.mapValues f, by simpa using table.distinct⟩

theorem ofEntries_entries (table : Table α) : ofEntries table.entries = table :=
  Table.ext (Entries.collapse_of_nodup table.distinct)

theorem ofEntries_mapValues (f : α → β) (table : Table α) :
    ofEntries (table.entries.mapValues f) = table.mapValues f := by
  apply Table.ext
  exact Entries.collapse_of_nodup (table.mapValues f).distinct

theorem mapValues_eq_self_iff {f : α → α} {table : Table α} :
    table.mapValues f = table ↔
      ∀ entry ∈ table.entries, f entry.2 = entry.2 := by
  rw [Table.ext_iff]
  exact Entries.mapValues_eq_self_iff

end Table

namespace SortedTable

variable {α : Type}

theorem mem_names_ofEntries {name : String} {entries : Entries α} :
    name ∈ (ofEntries entries).entries.names ↔ name ∈ entries.names := by
  rw [ofEntries, Entries.mem_names_foldl_putSorted]
  simp

theorem mem_of_mem_ofEntries {entry : String × α} {entries : Entries α}
    (h : entry ∈ (ofEntries entries).entries) : entry ∈ entries :=
  (Entries.mem_of_mem_foldl_putSorted [] h).resolve_left List.not_mem_nil

theorem perm_ofEntries {entries : Entries α} (h : entries.names.Nodup) :
    (ofEntries entries).entries.Perm entries :=
  @Entries.perm_foldl_putSorted _ [] entries h

theorem eq_of_perm {left right : SortedTable α}
    (h : left.entries.Perm right.entries) : left = right := by
  apply SortedTable.ext
  refine h.eq_of_pairwise ?_ (List.pairwise_map.mp left.ascending)
    (List.pairwise_map.mp right.ascending)
  intro first second _ _ before after
  exact absurd (String.lt_trans before after) (String.lt_irrefl _)

theorem ofEntries_entries (table : SortedTable α) :
    ofEntries table.entries = table :=
  SortedTable.ext
    (@Entries.foldl_putSorted_of_ascending _ [] _ table.ascending)

theorem nodup_names (table : SortedTable α) : table.entries.names.Nodup :=
  table.ascending.imp fun before => by
    rintro rfl
    exact String.lt_irrefl _ before

end SortedTable

end FeatureFlags
