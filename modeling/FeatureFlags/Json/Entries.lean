/-!
# Named entries in order

A list of named entries keeps the order in which the names first came.  `put`
gives a name its value: a name already there keeps its place, a new one goes to
the end.  A `Table` is such a list in which no name comes twice.
-/

namespace FeatureFlags

abbrev Entries (α : Type) := List (String × α)

namespace Entries

variable {α β : Type}

def names (entries : Entries α) : List String := entries.map Prod.fst

def value? (name : String) : Entries α → Option α
  | [] => none
  | (other, value) :: rest => if other = name then some value else value? name rest

def put (name : String) (value : α) : Entries α → Entries α
  | [] => [(name, value)]
  | (other, old) :: rest =>
    if other = name then (name, value) :: rest
    else (other, old) :: put name value rest

/-- The entries put one after another: first place, last value. -/
def collapse (entries : Entries α) : Entries α :=
  entries.foldl (fun kept entry => put entry.1 entry.2 kept) []

def mapValues (f : α → β) (entries : Entries α) : Entries β :=
  entries.map fun entry => (entry.1, f entry.2)

theorem names_put (name : String) (value : α) (entries : Entries α) :
    names (put name value entries) =
      if name ∈ names entries then names entries else names entries ++ [name] := by
  induction entries with
  | nil => simp [put, names]
  | cons entry rest ih =>
      obtain ⟨other, old⟩ := entry
      by_cases h : other = name
      · simp [put, names, h]
      · have := Ne.symm h
        by_cases known : name ∈ names rest <;>
          simp_all [put, names]

theorem nodup_names_put {entries : Entries α} (h : (names entries).Nodup)
    (name : String) (value : α) : (names (put name value entries)).Nodup := by
  rw [names_put]
  split
  · exact h
  · rename_i absent
    refine List.nodup_append.mpr ⟨h, by simp, ?_⟩
    intro a ha b hb
    rw [List.mem_singleton] at hb
    subst hb
    exact fun same => absent (same ▸ ha)

theorem value?_put (name wanted : String) (value : α) (entries : Entries α) :
    value? wanted (put name value entries) =
      if name = wanted then some value else value? wanted entries := by
  induction entries with
  | nil => simp [put, value?]
  | cons entry rest ih =>
      obtain ⟨other, old⟩ := entry
      by_cases h : other = name
      · subst h
        by_cases same : other = wanted <;> simp [put, value?, same]
      · by_cases same : other = wanted
        · subst same
          simp [put, value?, h, Ne.symm h]
        · simp [put, value?, h, same, ih]

theorem nodup_names_foldl_put {entries : Entries α} (kept : Entries α)
    (h : (names kept).Nodup) :
    (names (entries.foldl
      (fun kept entry => put entry.1 entry.2 kept) kept)).Nodup := by
  induction entries generalizing kept with
  | nil => exact h
  | cons entry rest ih => exact ih _ (nodup_names_put h _ _)

theorem nodup_names_collapse (entries : Entries α) :
    (names (collapse entries)).Nodup :=
  nodup_names_foldl_put [] List.nodup_nil

end Entries

structure Table (α : Type) where
  entries : Entries α
  distinct : entries.names.Nodup
  deriving DecidableEq

namespace Table

variable {α : Type}

def empty : Table α := ⟨[], List.nodup_nil⟩

def ofEntries (entries : Entries α) : Table α :=
  ⟨entries.collapse, entries.nodup_names_collapse⟩

def size (table : Table α) : Nat := table.entries.length

def first? (table : Table α) : Option (String × α) := table.entries.head?

instance : EmptyCollection (Table α) := ⟨empty⟩

instance : Inhabited (Table α) := ⟨empty⟩

@[ext] theorem ext {left right : Table α} (h : left.entries = right.entries) :
    left = right := by
  cases left
  cases right
  cases h
  rfl

end Table

end FeatureFlags
