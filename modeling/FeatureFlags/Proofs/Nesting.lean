import FeatureFlags.Json.Distinct
import FeatureFlags.Proofs.Records
import FeatureFlags.Proofs.Tables
import FeatureFlags.Proofs.ValueText

/-!
# How deep values nest

A reader takes arrays and objects up to a depth and no deeper, so what it reads
or keeps nests no deeper either.  Distinct values that nest no deeper, and whose
numbers are read back, are legible: there is nothing else to ask of a value.
-/

namespace FeatureFlags

namespace Json

mutual

/-- How many arrays and objects lie one in another, at most. -/
def nesting : Json → Nat
  | null => 0
  | bool _ => 0
  | num _ => 0
  | str _ => 0
  | arr items => itemsNesting items + 1
  | obj members => membersNesting members + 1

def itemsNesting : List Json → Nat
  | [] => 0
  | item :: items => max item.nesting (itemsNesting items)

def membersNesting : List (String × Json) → Nat
  | [] => 0
  | (_, value) :: members => max value.nesting (membersNesting members)

end

theorem itemsNesting_le_iff {items : List Json} {depth : Nat} :
    itemsNesting items ≤ depth ↔ ∀ item ∈ items, item.nesting ≤ depth := by
  induction items with
  | nil => simp [itemsNesting]
  | cons item items ih =>
      simp only [itemsNesting, Nat.max_le, ih, List.forall_mem_cons]

theorem membersNesting_le_iff {members : Entries Json} {depth : Nat} :
    membersNesting members ≤ depth ↔
      ∀ member ∈ members, member.2.nesting ≤ depth := by
  induction members with
  | nil => simp [membersNesting]
  | cons member members ih =>
      obtain ⟨name, value⟩ := member
      simp only [membersNesting, Nat.max_le, ih, List.forall_mem_cons]

@[simp] theorem nesting_arr_le_iff {items : List Json} {depth : Nat} :
    (arr items).nesting ≤ depth + 1 ↔
      ∀ item ∈ items, item.nesting ≤ depth := by
  rw [nesting, Nat.add_le_add_iff_right, itemsNesting_le_iff]

@[simp] theorem nesting_obj_le_iff {members : Entries Json} {depth : Nat} :
    (obj members).nesting ≤ depth + 1 ↔
      ∀ member ∈ members, member.2.nesting ≤ depth := by
  rw [nesting, Nat.add_le_add_iff_right, membersNesting_le_iff]

theorem nesting_lt_of_mem_arr {items : List Json} {item : Json}
    (h : item ∈ items) : item.nesting < (arr items).nesting := by
  rw [nesting, Nat.lt_add_one_iff]
  exact itemsNesting_le_iff.mp (Nat.le_refl _) item h

theorem nesting_lt_of_mem_obj {members : Entries Json}
    {member : String × Json} (h : member ∈ members) :
    member.2.nesting < (obj members).nesting := by
  rw [nesting, Nat.lt_add_one_iff]
  exact membersNesting_le_iff.mp (Nat.le_refl _) member h

theorem handedOn_nesting_le : HandedOn fun depth json => json.nesting ≤ depth where
  null depth := Nat.zero_le depth
  bool depth _ := Nat.zero_le depth
  num depth _ := Nat.zero_le depth
  str depth _ := Nat.zero_le depth
  arr _ _ each := nesting_arr_le_iff.mpr each
  obj _ _ each := nesting_obj_le_iff.mpr fun member hmember =>
    each member (Entries.mem_of_mem_collapse hmember)

theorem nesting_le_of_value {depth : Nat} {cs rest : List Char} {json : Json}
    (h : value depth cs = .ok (json, rest)) : json.nesting ≤ depth :=
  handedOn_nesting_le.of_value h

/-! ## Numbers -/

instance (n : Number) : Decidable n.ReadsBack :=
  inferInstanceAs (Decidable (_ = _))

mutual

def numbers : Json → List Number
  | null => []
  | bool _ => []
  | num n => [n]
  | str _ => []
  | arr items => itemsNumbers items
  | obj members => membersNumbers members

def itemsNumbers : List Json → List Number
  | [] => []
  | item :: items => item.numbers ++ itemsNumbers items

def membersNumbers : List (String × Json) → List Number
  | [] => []
  | (_, value) :: members => value.numbers ++ membersNumbers members

end

theorem mem_itemsNumbers {items : List Json} {item : Json} {n : Number}
    (hitem : item ∈ items) (h : n ∈ item.numbers) : n ∈ itemsNumbers items := by
  induction items with
  | nil => simp at hitem
  | cons first items ih =>
      rw [itemsNumbers, List.mem_append]
      rcases List.mem_cons.mp hitem with rfl | hitem
      · exact .inl h
      · exact .inr (ih hitem)

theorem mem_membersNumbers {members : Entries Json} {member : String × Json}
    {n : Number} (hmember : member ∈ members) (h : n ∈ member.2.numbers) :
    n ∈ membersNumbers members := by
  induction members with
  | nil => simp at hmember
  | cons first members ih =>
      obtain ⟨name, value⟩ := first
      rw [membersNumbers, List.mem_append]
      rcases List.mem_cons.mp hmember with rfl | hmember
      · exact .inl h
      · exact .inr (ih hmember)

theorem legible_of_nesting_le {depth : Nat} {json : Json}
    (distinct : json.Distinct) (readsBack : ∀ n ∈ json.numbers, n.ReadsBack)
    (nests : json.nesting ≤ depth) : Legible depth json := by
  induction depth generalizing json with
  | zero =>
      cases json with
      | null => exact .null 0
      | bool value => exact .bool 0 value
      | num n => exact .num 0 (readsBack n (by simp [numbers]))
      | str text => exact .str 0 text
      | arr | obj => simp [nesting] at nests
  | succ depth ih =>
      cases json with
      | null => exact .null _
      | bool value => exact .bool _ value
      | num n => exact .num _ (readsBack n (by simp [numbers]))
      | str text => exact .str _ text
      | arr items =>
          refine .arr fun item hitem => ih ?_ ?_ ?_
          · exact distinctItems_iff.mp distinct item hitem
          · exact fun n hn => readsBack n (mem_itemsNumbers hitem hn)
          · exact nesting_arr_le_iff.mp nests item hitem
      | obj members =>
          refine .obj distinct.1 fun member hmember => ih ?_ ?_ ?_
          · exact distinctMembers_iff.mp distinct.2 member hmember
          · exact fun n hn => readsBack n (mem_membersNumbers hmember hn)
          · exact nesting_obj_le_iff.mp nests member hmember

end Json

namespace Shape

/-- What is kept nests no deeper than reading may go. -/
def Keeper.Shallow (keep : Keeper) : Prop :=
  ∀ depth cs json rest, keep depth cs = .ok (json, rest) →
    json.nesting ≤ depth

theorem settle_eq_ok_iff {α : Type} {close : List Char → List Char}
    {read : Except Halt α} {value : α} :
    settle close read = .ok value ↔ read = .ok value := by
  unfold settle
  split <;> simp

namespace Keeper

theorem shallow_judged (judge : Json → Option Mismatch) :
    (judged judge).Shallow := by
  intro depth cs json rest h
  unfold judged at h
  split at h
  · simp at h
  · rename_i found after read
    split at h
    · cases h
      exact Json.nesting_le_of_value read
    · simp at h

theorem shallow_text : text.Shallow := by
  intro depth cs json rest h
  unfold text at h
  split at h
  · split at h
    · simp at h
    · cases h
      exact Nat.zero_le depth
  · simp at h

variable {keep : Keeper}

theorem Shallow.nullable (shallow : keep.Shallow) : keep.nullable.Shallow := by
  intro depth cs json rest h
  unfold Keeper.nullable at h
  split at h
  · split at h
    · simp at h
    · cases h
      exact Nat.zero_le depth
  · exact shallow depth _ _ _ h

theorem Shallow.table (shallow : keep.Shallow) : keep.table.Shallow := by
  intro depth cs json rest h
  unfold Keeper.table at h
  split at h
  · rename_i after _
    cases depth with
    | zero => simp at h
    | succ depth =>
        simp only [settle_eq_ok_iff] at h
        cases found : Json.members .ofStop (keep depth) (after.length + 1) true
            after with
        | error halt => simp [found, Except.map] at h
        | ok read =>
            simp only [found, Except.map, Except.ok.injEq, Prod.mk.injEq] at h
            have each := Json.forall_mem_of_members (shallow depth) found
            rw [← h.1, Json.nesting_obj_le_iff]
            intro member hmember
            exact each member (Entries.mem_of_mem_collapse hmember)
  · simp at h

end Keeper

section Fields

variable {steps : Entries Step} {P : Json → Prop}

theorem forall_mem_of_keepMembers
    (hstep : ∀ step ∈ steps, ∀ cs json rest,
      step.2 cs = .ok (json, rest) → P json)
    {fuel : Nat} {first : Bool} {seen : List String} {cs rest : List Char}
    {kept : Entries Json}
    (h : keepMembers steps fuel first seen cs = .ok (kept, rest)) :
    ∀ member ∈ kept, P member.2 := by
  induction fuel generalizing first seen cs kept rest with
  | zero => simp [keepMembers] at h
  | succ fuel ih =>
      simp only [keepMembers] at h
      split at h
      · simp at h
      · cases h
        simp
      · split at h
        -- a name without a step is passed over
        · split at h
          · simp at h
          · exact ih h
        · rename_i step known
          split at h
          · simp at h
          · split at h
            · simp at h
            · split at h
              · simp at h
              · rename_i json after hjson
                split at h
                · simp at h
                · rename_i others tail hothers
                  cases h
                  rw [List.forall_mem_cons]
                  have hmem := Entries.mem_of_value?_eq_some known
                  exact ⟨hstep _ hmem _ _ _ hjson, ih hothers⟩

theorem forall_mem_of_keepItems
    (hstep : ∀ step ∈ steps, ∀ cs json rest,
      step.2 cs = .ok (json, rest) → P json)
    {first closed : Bool} {cs rest : List Char} {kept : Entries Json}
    (h : keepItems steps first cs = .ok (kept, closed, rest)) :
    ∀ member ∈ kept, P member.2 := by
  induction steps generalizing first cs kept rest with
  | nil =>
      cases h
      simp
  | cons step steps ih =>
      rw [List.forall_mem_cons] at hstep
      simp only [keepItems] at h
      split at h
      · simp at h
      · cases h
        simp
      · split at h
        · simp at h
        · rename_i json after hjson
          split at h
          · simp at h
          · rename_i others closed tail hothers
            cases h
            rw [List.forall_mem_cons]
            exact ⟨hstep.1 _ _ _ hjson, ih hstep.2 hothers⟩

end Fields

theorem judgeKept_eq_ok {judge : Form → Entries Json → Option Mismatch}
    {form : Form} {kept : Entries Json} {after rest : List Char} {json : Json}
    (h : judgeKept judge form kept after = .ok (json, rest)) :
    json = .obj kept := by
  unfold judgeKept at h
  split at h
  · cases h
    rfl
  · simp at h

theorem Keeper.shallow_record {name : String} {fields : Entries Keeper}
    {judge : Form → Entries Json → Option Mismatch}
    (each : ∀ field ∈ fields, field.2.Shallow) :
    (record name fields judge).Shallow := by
  have steps (depth : Nat) :
      ∀ step ∈ (fields.mapValues (· depth) : Entries Step), ∀ cs json rest,
        step.2 cs = .ok (json, rest) → json.nesting ≤ depth := by
    intro step hstep
    obtain ⟨field, hfield, rfl⟩ := List.mem_map.mp hstep
    exact each field hfield depth
  intro depth cs json rest h
  unfold record at h
  split at h
  · cases depth with
    | zero => simp at h
    | succ depth =>
        simp only [settle_eq_ok_iff] at h
        split at h
        · simp at h
        · rename_i kept after found
          rw [judgeKept_eq_ok h, Json.nesting_obj_le_iff]
          exact forall_mem_of_keepItems (steps depth) found
        · rename_i kept after found
          split at h
          · simp at h
          · rw [judgeKept_eq_ok h, Json.nesting_obj_le_iff]
            exact forall_mem_of_keepItems (steps depth) found
  · cases depth with
    | zero => simp at h
    | succ depth =>
        simp only [settle_eq_ok_iff] at h
        split at h
        · simp at h
        · rename_i kept after found
          rw [judgeKept_eq_ok h, Json.nesting_obj_le_iff]
          exact forall_mem_of_keepMembers (steps depth) found
  · simp at h

theorem Reader.shallow_ofTree {α : Type} (read : Json → Except Mismatch α) :
    (ofTree read).keep.Shallow := Keeper.shallow_judged _

theorem Reader.exists_tree_of_ofText {α : Type} {reader : Reader α}
    {text : String} {value : α} (shallow : reader.keep.Shallow)
    (read : reader.ofText text = .ok value) :
    ∃ tree, tree.nesting ≤ Json.depthLimit ∧
      reader.ofJson tree = .ok value := by
  have taken := mapError_eq_ok_iff.mp read
  unfold ofChars at taken
  split at taken
  · simp at taken
  · rename_i kept rest found
    split at taken
    · simp at taken
    · exact ⟨kept, shallow _ _ _ _ found, mapError_eq_ok_iff.mp taken⟩

theorem Record.exists_source_of_ofJson {α : Type} {name : String}
    {record : Record α} {json : Json} {value : α}
    (h : (record.reader name).ofJson json = .ok value) :
    ∃ source, record.build source = .ok value ∧
      ∀ field found, source.find? field = some found →
        found.nesting < json.nesting := by
  cases json with
  | obj members =>
      refine ⟨_, ofMembers_eq_ok_iff.mp h, ?_⟩
      intro field found known
      exact Json.nesting_lt_of_mem_obj (Entries.mem_of_value?_eq_some known)
  | arr items =>
      refine ⟨_, (ofItems_eq_ok_iff.mp h).2, ?_⟩
      intro field found known
      have hmem := Entries.mem_of_value?_eq_some known
      exact Json.nesting_lt_of_mem_arr (List.of_mem_zip hmem).2
  | _ => exact nomatch h

end Shape

end FeatureFlags
