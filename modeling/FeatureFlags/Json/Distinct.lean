import FeatureFlags.Json.Reader

/-!
# Distinct names

A tree is distinct when no object in it repeats a name.  Main statement: every
value that a text is read as is distinct, whatever the text repeats.  The way
there, by what brackets hand on, serves other properties of what is read too.
-/

namespace FeatureFlags.Json

mutual

/-- No object in the value repeats a name. -/
def Distinct : Json → Prop
  | null => True
  | bool _ => True
  | num _ => True
  | str _ => True
  | arr items => DistinctItems items
  | obj members => (Entries.names members).Nodup ∧ DistinctMembers members

def DistinctItems : List Json → Prop
  | [] => True
  | item :: items => Distinct item ∧ DistinctItems items

def DistinctMembers : List (String × Json) → Prop
  | [] => True
  | (_, value) :: members => Distinct value ∧ DistinctMembers members

end

theorem distinctItems_iff {items : List Json} :
    DistinctItems items ↔ ∀ item ∈ items, Distinct item := by
  induction items with
  | nil => simp [DistinctItems]
  | cons item items ih => simp [DistinctItems, ih]

theorem distinctMembers_iff {members : Entries Json} :
    DistinctMembers members ↔ ∀ member ∈ members, Distinct member.2 := by
  induction members with
  | nil => simp [DistinctMembers]
  | cons member members ih =>
      obtain ⟨name, value⟩ := member
      simp [DistinctMembers, ih]

theorem distinctMembers_put {name : String} {value : Json}
    {members : Entries Json} (hvalue : Distinct value)
    (h : DistinctMembers members) :
    DistinctMembers (Entries.put name value members) := by
  induction members with
  | nil => exact ⟨hvalue, trivial⟩
  | cons member rest ih =>
      obtain ⟨other, old⟩ := member
      simp only [Entries.put]
      split
      · exact ⟨hvalue, h.2⟩
      · exact ⟨h.1, ih h.2⟩

theorem distinctMembers_foldl_put {members : Entries Json}
    (kept : Entries Json) (hkept : DistinctMembers kept)
    (h : DistinctMembers members) :
    DistinctMembers (members.foldl
      (fun kept member => Entries.put member.1 member.2 kept) kept) := by
  induction members generalizing kept with
  | nil => exact hkept
  | cons member rest ih =>
      obtain ⟨name, value⟩ := member
      exact ih _ (distinctMembers_put h.1 hkept) h.2

theorem distinct_obj_collapse {members : Entries Json}
    (h : DistinctMembers members) : Distinct (obj members.collapse) :=
  ⟨Entries.nodup_names_collapse members,
    distinctMembers_foldl_put [] trivial h⟩

section Loops

variable {ε : Type} {lift : Stop → ε}
  {read : List Char → Except ε (Json × List Char)} {P : Json → Prop}
  (hread : ∀ cs json rest, read cs = .ok (json, rest) → P json)
include hread

theorem forall_mem_of_items {fuel : Nat} {first : Bool} {cs rest : List Char}
    {found : List Json}
    (h : items lift read fuel first cs = .ok (found, rest)) :
    ∀ item ∈ found, P item := by
  induction fuel generalizing first cs found rest with
  | zero => simp [items] at h
  | succ fuel ih =>
      simp only [items] at h
      split at h
      · simp at h
      · simp only [Except.ok.injEq, Prod.mk.injEq] at h
        simp [← h.1]
      · split at h
        · simp at h
        · rename_i item after hitem
          split at h
          · simp at h
          · rename_i others tail hothers
            simp only [Except.ok.injEq, Prod.mk.injEq] at h
            rw [← h.1, List.forall_mem_cons]
            exact ⟨hread _ _ _ hitem, ih hothers⟩

theorem forall_mem_of_members {fuel : Nat} {first : Bool} {cs rest : List Char}
    {found : Entries Json}
    (h : members lift read fuel first cs = .ok (found, rest)) :
    ∀ member ∈ found, P member.2 := by
  induction fuel generalizing first cs found rest with
  | zero => simp [members] at h
  | succ fuel ih =>
      simp only [members] at h
      split at h
      · simp at h
      · simp only [Except.ok.injEq, Prod.mk.injEq] at h
        simp [← h.1]
      · split at h
        · simp at h
        · split at h
          · simp at h
          · rename_i value after hvalue
            split at h
            · simp at h
            · rename_i others tail hothers
              simp only [Except.ok.injEq, Prod.mk.injEq] at h
              rw [← h.1, List.forall_mem_cons]
              exact ⟨hread _ _ _ hvalue, ih hothers⟩

end Loops

theorem of_map {α : Type} {P : Json → Prop} {read : Except Stop α}
    {f : α → Json × List Char} {rest : List Char} {json : Json}
    (h : read.map f = .ok (json, rest)) (hf : ∀ found, P (f found).1) :
    P json := by
  cases read with
  | error stop => simp [Except.map] at h
  | ok found =>
      simp only [Except.map, Except.ok.injEq] at h
      simpa [h] using hf found

/-- Scalars have the property, and brackets hand it on. -/
structure HandedOn (P : Nat → Json → Prop) : Prop where
  null (depth : Nat) : P depth null
  bool (depth : Nat) (value : Bool) : P depth (bool value)
  num (depth : Nat) (n : Number) : P depth (num n)
  str (depth : Nat) (text : String) : P depth (str text)
  arr (depth : Nat) (items : List Json) :
    (∀ item ∈ items, P depth item) → P (depth + 1) (arr items)
  obj (depth : Nat) (members : Entries Json) :
    (∀ member ∈ members, P depth member.2) →
      P (depth + 1) (obj members.collapse)

namespace HandedOn

variable {P : Nat → Json → Prop} (handedOn : HandedOn P)

include handedOn

theorem of_scalar {depth : Nat} {cs rest : List Char} {json : Json}
    (h : scalar cs = .ok (json, rest)) : P depth json := by
  unfold scalar at h
  split at h
  · simp at h
  · exact of_map h fun _ => handedOn.null depth
  · exact of_map h fun _ => handedOn.bool depth true
  · exact of_map h fun _ => handedOn.bool depth false
  · exact of_map h fun _ => handedOn.str depth _
  · exact of_map h fun _ => handedOn.num depth _
  · split at h
    · exact of_map h fun _ => handedOn.num depth _
    · simp at h

theorem of_value {depth : Nat} {cs rest : List Char} {json : Json}
    (h : value depth cs = .ok (json, rest)) : P depth json := by
  induction depth generalizing cs json rest with
  | zero =>
      simp only [value] at h
      split at h
      · simp at h
      · simp at h
      · exact handedOn.of_scalar h
  | succ depth ih =>
      simp only [value] at h
      split at h
      · rename_i after _
        cases hitems : items id (value depth) (after.length + 1) true after with
        | error stop => simp [hitems, Except.map] at h
        | ok found =>
            simp only [hitems, Except.map, Except.ok.injEq, Prod.mk.injEq] at h
            rw [← h.1]
            exact handedOn.arr depth _
              (forall_mem_of_items (fun _ _ _ => ih) hitems)
      · rename_i after _
        cases hmembers :
            members id (value depth) (after.length + 1) true after with
        | error stop => simp [hmembers, Except.map] at h
        | ok found =>
            simp only [hmembers, Except.map, Except.ok.injEq,
              Prod.mk.injEq] at h
            rw [← h.1]
            exact handedOn.obj depth _
              (forall_mem_of_members (fun _ _ _ => ih) hmembers)
      · exact handedOn.of_scalar h

end HandedOn

theorem handedOn_distinct : HandedOn fun _ json => Distinct json where
  null _ := trivial
  bool _ _ := trivial
  num _ _ := trivial
  str _ _ := trivial
  arr _ _ each := distinctItems_iff.mpr each
  obj _ _ each := distinct_obj_collapse (distinctMembers_iff.mpr each)

theorem distinct_of_value {depth : Nat} {cs rest : List Char} {json : Json}
    (h : value depth cs = .ok (json, rest)) : Distinct json :=
  handedOn_distinct.of_value h

theorem distinct_of_parseChars {cs : List Char} {json : Json}
    (h : parseChars cs = .ok json) : Distinct json := by
  unfold parseChars at h
  split at h
  · simp at h
  · rename_i found rest hvalue
    cases hend : atEnd rest with
    | error stop => simp [hend, Except.map] at h
    | ok done =>
        simp only [hend, Except.map, Except.ok.injEq] at h
        exact h ▸ distinct_of_value hvalue

theorem distinct_of_parse {text : String} {json : Json}
    (h : parse text = .ok json) : Distinct json := by
  unfold parse at h
  cases hread : parseChars text.toList with
  | error stop =>
      rw [hread] at h
      exact nomatch h
  | ok found =>
      rw [hread] at h
      exact Except.ok.inj h ▸ distinct_of_parseChars hread

end FeatureFlags.Json
