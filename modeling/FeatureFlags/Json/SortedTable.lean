import FeatureFlags.Json.Entries

/-!
# Tables sorted by name

A `SortedTable` holds its entries in ascending order of their names, compared
character by character.  The order of the bytes in UTF-8 is the same.
-/

namespace FeatureFlags

namespace Entries

variable {α : Type}

/-- Puts an entry where its name belongs, in the place of one of that name. -/
def putSorted (name : String) (value : α) : Entries α → Entries α
  | [] => [(name, value)]
  | (other, old) :: rest =>
    if name < other then (name, value) :: (other, old) :: rest
    else if other = name then (name, value) :: rest
    else (other, old) :: putSorted name value rest

def Ascending (entries : Entries α) : Prop := entries.names.Pairwise (· < ·)

instance (entries : Entries α) : Decidable entries.Ascending :=
  inferInstanceAs (Decidable (List.Pairwise _ _))

theorem mem_names_putSorted {name other : String} {value : α}
    {entries : Entries α} (h : other ∈ (putSorted name value entries).names) :
    other = name ∨ other ∈ entries.names := by
  induction entries with
  | nil => simpa [putSorted, names] using h
  | cons entry rest ih =>
      obtain ⟨first, old⟩ := entry
      simp only [putSorted] at h
      split at h
      · simpa [names] using h
      · split at h
        · simp only [names, List.map_cons, List.mem_cons] at h ⊢
          exact h.imp_right .inr
        · simp only [names, List.map_cons, List.mem_cons] at h ⊢
          rcases h with h | h
          · exact .inr (.inl h)
          · rcases ih h with h | h
            · exact .inl h
            · exact .inr (.inr h)

theorem ascending_putSorted (name : String) (value : α) {entries : Entries α}
    (h : entries.Ascending) : (putSorted name value entries).Ascending := by
  induction entries with
  | nil => simp [putSorted, Ascending, names]
  | cons entry rest ih =>
      obtain ⟨other, old⟩ := entry
      simp only [Ascending, names, List.map_cons, List.pairwise_cons] at h ih ⊢
      simp only [putSorted]
      split
      · rename_i before
        simp only [List.map_cons, List.pairwise_cons, List.mem_cons]
        refine ⟨?_, h⟩
        rintro later (rfl | later_mem)
        · exact before
        · exact String.lt_trans before (h.1 later later_mem)
      · split
        · rename_i same
          subst same
          simpa using h
        · rename_i notBefore differs
          simp only [List.map_cons, List.pairwise_cons]
          refine ⟨?_, ih h.2⟩
          intro later later_mem
          rcases mem_names_putSorted later_mem with rfl | later_mem
          · exact Std.lt_of_le_of_ne (String.not_lt.mp notBefore) differs
          · exact h.1 later later_mem

theorem ascending_foldl_putSorted {entries : Entries α} (kept : Entries α)
    (h : kept.Ascending) :
    (entries.foldl (fun kept entry => putSorted entry.1 entry.2 kept)
      kept).Ascending := by
  induction entries generalizing kept with
  | nil => exact h
  | cons entry rest ih => exact ih _ (ascending_putSorted _ _ h)

end Entries

structure SortedTable (α : Type) where
  entries : Entries α
  ascending : entries.Ascending
  deriving DecidableEq

namespace SortedTable

variable {α : Type}

def empty : SortedTable α := ⟨[], List.Pairwise.nil⟩

def single (name : String) (value : α) : SortedTable α :=
  ⟨[(name, value)], List.pairwise_singleton _ _⟩

def ofEntries (entries : Entries α) : SortedTable α :=
  ⟨entries.foldl (fun kept entry => kept.putSorted entry.1 entry.2) [],
    Entries.ascending_foldl_putSorted [] List.Pairwise.nil⟩

instance : Inhabited (SortedTable α) := ⟨empty⟩

@[ext] theorem ext {left right : SortedTable α}
    (h : left.entries = right.entries) : left = right := by
  cases left
  cases right
  cases h
  rfl

end SortedTable

end FeatureFlags
