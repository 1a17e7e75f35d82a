import FeatureFlags.Draft.Condition
import Mathlib.Data.List.DropRight

/-!
# Laws of comma lists

A list of values is clean when its text tells it: no value holds a comma or has
a blank at an end, and the list is not a single empty value.  Main statements:
what `values` reads is clean, and `values` undoes `join` on the clean lists and
on no others.  So the values that a condition lists are listed again when joined.
-/

namespace FeatureFlags.Text

def CleanValue (value : String) : Prop :=
  ',' ∉ value.toList ∧ trim value = value

def CleanValues (values : List String) : Prop :=
  (∀ value ∈ values, CleanValue value) ∧ values ≠ [""]

theorem trimChars_eq_rdropWhile (cs : List Char) :
    trimChars cs = (cs.dropWhile isBlank).rdropWhile isBlank := rfl

theorem trimChars_eq_nil_iff {cs : List Char} :
    trimChars cs = [] ↔ ∀ c ∈ cs, isBlank c = true := by
  rw [trimChars_eq_rdropWhile, List.rdropWhile_eq_nil_iff]
  constructor
  · intro blank c hc
    rw [← List.takeWhile_append_dropWhile (p := isBlank) (l := cs)] at hc
    rcases List.mem_append.mp hc with hc | hc
    · exact List.mem_takeWhile_imp hc
    · exact blank c hc
  · intro blank c hc
    exact blank c (List.dropWhile_subset isBlank hc)

theorem trimChars_subset (cs : List Char) : trimChars cs ⊆ cs := by
  rw [trimChars_eq_rdropWhile]
  have front := List.rdropWhile_prefix isBlank (cs.dropWhile isBlank)
  exact List.Subset.trans front.subset (List.dropWhile_subset isBlank)

theorem trimChars_cons_of_blank {c : Char} (h : isBlank c = true)
    (cs : List Char) : trimChars (c :: cs) = trimChars cs := by
  simp [trimChars, h]

theorem trimChars_trimChars (cs : List Char) :
    trimChars (trimChars cs) = trimChars cs := by
  apply trimChars_eq_self
  · intro c hc
    have kept := List.rdropWhile_prefix isBlank (cs.dropWhile isBlank)
    rw [trimChars_eq_rdropWhile] at hc
    have first : (cs.dropWhile isBlank).head? = some c := by
      obtain ⟨rest, hrest⟩ := kept
      rw [← hrest, List.head?_append, Option.mem_def.mp hc, Option.some_or]
    have := List.head?_dropWhile_not isBlank cs
    simpa [first] using this
  · intro c hc
    rw [trimChars_eq_rdropWhile] at hc
    obtain ⟨nonempty, hlast⟩ := List.mem_getLast?_eq_getLast hc
    have := List.rdropWhile_last_not isBlank _ nonempty
    rw [hlast]
    simpa using this

theorem trim_eq_iff {text : String} :
    trim text = text ↔ trimChars text.toList = text.toList := by
  rw [trim, ← String.toList_inj, String.toList_ofList]

theorem cut_of_notMem {separator : Char} {piece : List Char}
    (h : separator ∉ piece) : cut separator piece = [piece] := by
  induction piece with
  | nil => rfl
  | cons c piece ih =>
      simp only [List.mem_cons, not_or] at h
      simp [cut, Ne.symm h.1, ih h.2]

theorem cut_append_cons {separator : Char} {piece : List Char}
    (h : separator ∉ piece) (rest : List Char) :
    cut separator (piece ++ separator :: rest) =
      piece :: cut separator rest := by
  induction piece with
  | nil => simp [cut]
  | cons c piece ih =>
      simp only [List.mem_cons, not_or] at h
      simp [cut, Ne.symm h.1, ih h.2]

theorem eq_of_cut_eq_singleton {separator : Char} {cs piece : List Char}
    (h : cut separator cs = [piece]) : piece = cs := by
  induction cs generalizing piece with
  | nil => simpa [cut] using h.symm
  | cons c cs ih =>
      simp only [cut] at h
      split at h
      · simp [cut_ne_nil] at h
      · cases hcut : cut separator cs with
        | nil => exact absurd hcut (cut_ne_nil separator cs)
        | cons first others =>
            rw [hcut] at h
            simp only [List.cons.injEq] at h
            obtain ⟨rfl, rfl⟩ := h
            rw [ih hcut]

theorem cut_join (lead : List Char) (first : String) (others : List String)
    (hlead : ',' ∉ lead)
    (h : ∀ value ∈ first :: others, ',' ∉ value.toList) :
    cut ',' (lead ++ (join ", " (first :: others)).toList) =
      (lead ++ first.toList) :: others.map fun value => ' ' :: value.toList := by
  -- the first value stands after `lead`, every other after a space
  induction others generalizing lead first with
  | nil =>
      have hfirst : ',' ∉ lead ++ first.toList := by simp [hlead, h]
      simpa [join] using cut_of_notMem hfirst
  | cons second others ih =>
      have hfirst := h first (by simp)
      have tail := ih [' '] second (by decide)
        (fun value hvalue => h value (List.mem_cons_of_mem _ hvalue))
      have text : lead ++ (join ", " (first :: second :: others)).toList =
          (lead ++ first.toList) ++
            ',' :: ([' '] ++ (join ", " (second :: others)).toList) := by
        simp [join]
      rw [text, cut_append_cons (by simp [hlead, hfirst]), tail]
      simp

theorem cleanValue_of_mem_cut {cs piece : List Char} (h : piece ∈ cut ',' cs) :
    CleanValue (String.ofList (trimChars piece)) := by
  constructor
  · rw [String.toList_ofList]
    exact fun hmem =>
      separator_notMem_of_mem_cut h (trimChars_subset piece hmem)
  · rw [trim_eq_iff, String.toList_ofList, trimChars_trimChars]

theorem cleanValues_values (text : String) : CleanValues (values text) := by
  unfold values
  split
  · exact ⟨by simp, by simp⟩
  · rename_i notBlank
    constructor
    · intro value hvalue
      obtain ⟨piece, hpiece, rfl⟩ := List.mem_map.mp hvalue
      exact cleanValue_of_mem_cut hpiece
    · intro single
      obtain ⟨piece, hpiece, hempty⟩ := List.map_eq_singleton_iff.mp single
      rw [eq_of_cut_eq_singleton hpiece, String.ofList_eq_empty_iff] at hempty
      simp [hempty] at notBlank

theorem trimChars_join_ne_nil {values : List String} (h : CleanValues values)
    (nonempty : values ≠ []) : trimChars (join ", " values).toList ≠ [] := by
  match values, nonempty with
  | [value], _ =>
      have kept := trim_eq_iff.mp (h.1 value (by simp)).2
      have text : value ≠ "" := fun empty => h.2 (by rw [empty])
      simpa [join, kept] using text
  | first :: second :: others, _ =>
      intro blank
      have comma := trimChars_eq_nil_iff.mp blank ',' (by simp [join])
      exact absurd comma (by decide)

theorem values_join {pieces : List String} (h : CleanValues pieces) :
    values (join ", " pieces) = pieces := by
  cases pieces with
  | nil => rfl
  | cons first others =>
      have notBlank := trimChars_join_ne_nil h (by simp)
      have hcut := cut_join [] first others (by simp)
        (fun value hvalue => (h.1 value hvalue).1)
      have kept : ∀ value ∈ first :: others,
          String.ofList (trimChars value.toList) = value :=
        fun value hvalue => (h.1 value hvalue).2
      have spaced : ∀ value ∈ others,
          String.ofList (trimChars (' ' :: value.toList)) = value := by
        intro value hvalue
        rw [trimChars_cons_of_blank (by decide)]
        exact kept value (List.mem_cons_of_mem _ hvalue)
      rw [List.nil_append] at hcut
      rw [values, if_neg (by simpa using notBlank), hcut]
      simp only [List.nil_append, List.map_cons, List.map_map]
      rw [kept first (by simp)]
      congr 1
      exact (List.map_congr_left spaced).trans (List.map_id' others)

theorem values_join_iff {pieces : List String} :
    values (join ", " pieces) = pieces ↔ CleanValues pieces :=
  ⟨fun h => h ▸ cleanValues_values _, values_join⟩

end FeatureFlags.Text

namespace FeatureFlags.Condition

/--
A condition whose value joins some pieces lists the pieces again exactly when
they are clean, and what a condition lists is listed again when it is joined.
-/
theorem listValues_join_iff (condition : Condition) (pieces : List String) :
    ({ condition with value := Text.join ", " pieces }.listValues = pieces ↔
      (∀ piece ∈ pieces, ',' ∉ piece.toList ∧ Text.trim piece = piece) ∧
        pieces ≠ [""]) ∧
    { condition with
      value := Text.join ", " condition.listValues }.listValues =
        condition.listValues := by
  constructor
  · exact Text.values_join_iff
  · exact Text.values_join (Text.cleanValues_values condition.value)

example : ({ value := " a,b c ,, " } : Condition).listValues =
    ["a", "b c", "", ""] := by decide +kernel

end FeatureFlags.Condition
