import FeatureFlags.Proofs.Records
import FeatureFlags.Reopen

/-!
# Trees that flags are read from

A flag is read from an object by the names of its fields, or from an array by
their places, and any field may be absent or `null`.  Main statement: opening a
tree fails exactly when the tree is malformed, and otherwise gives the draft of
the flag that its fields stand for.  Since arrays can be opened, it is not enough
for a failure that the tree is no object.
-/

namespace FeatureFlags.Flag

open Shape (Reader Record field? IsRecord)

def WrongState (given : Option Json) : Prop :=
  ∃ json ∈ given, json ≠ .null ∧ json.kind ≠ .boolean ∧
    json ≠ .str "ENABLED" ∧ json ≠ .str "DISABLED"

def WrongKind (kind : Json.Kind) (given : Option Json) : Prop :=
  ∃ json ∈ given, json ≠ .null ∧ json.kind ≠ kind

/-- A tree without the form of a flag, or with a field of the wrong type. -/
def Malformed (json : Json) : Prop :=
  ¬ IsRecord 4 json ∨ WrongState (field? 0 "state" json) ∨
    WrongKind .string (field? 1 "defaultVariant" json) ∨
    WrongKind .object (field? 2 "variants" json)

def MalformedObject (json : Json) : Prop :=
  json.kind ≠ .object ∨ WrongState (json.member? "state") ∨
    WrongKind .string (json.member? "defaultVariant") ∨
    WrongKind .object (json.member? "variants")

instance (given : Option Json) : Decidable (WrongState given) :=
  inferInstanceAs (Decidable (∃ _ ∈ _, _))

instance (kind : Json.Kind) (given : Option Json) :
    Decidable (WrongKind kind given) :=
  inferInstanceAs (Decidable (∃ _ ∈ _, _))

instance (json : Json) : Decidable (Malformed json) :=
  inferInstanceAs (Decidable (_ ∨ _))

instance (json : Json) : Decidable (MalformedObject json) :=
  inferInstanceAs (Decidable (_ ∨ _))

theorem malformed_iff_of_ne_array {json : Json} (h : json.kind ≠ .array) :
    Malformed json ↔ MalformedObject json := by
  cases json with
  | obj members =>
      simp [Malformed, MalformedObject, IsRecord, Json.kind, field?, Json.item?]
  | arr items => exact absurd rfl h
  | _ => simp [Malformed, MalformedObject, IsRecord, Json.kind]

theorem malformed_arr_iff {items : List Json} :
    Malformed (.arr items) ↔ 4 < items.length ∨ WrongState items[0]? ∨
      WrongKind .string items[1]? ∨ WrongKind .object items[2]? := by
  simp [Malformed, IsRecord, field?, Json.member?, Json.item?]

def stateOf : Option Json → State
  | some (.bool value) => .ofBool value
  | some (.str name) => if name = "ENABLED" then .enabled else .disabled
  | _ => .disabled

def nameOf : Option Json → Option String
  | some (.str name) => some name
  | _ => none

def tableOf : Option Json → Table Json
  | some (.obj members) => .ofEntries members
  | _ => .empty

def presentOf : Option Json → Option Json
  | some .null => none
  | given => given

theorem presentOf_ne_null (given : Option Json) :
    presentOf given ≠ some .null := by
  unfold presentOf
  split
  · exact nofun
  · rename_i present
    exact fun null => present null

/-- The flag that the fields of a tree stand for, where none is wrong. -/
def ofFields (json : Json) : Flag where
  state := stateOf (field? 0 "state" json)
  defaultVariant := nameOf (field? 1 "defaultVariant" json)
  variants := tableOf (field? 2 "variants" json)
  targeting := presentOf (field? 3 "targeting" json)

section

variable {given : Option Json}

theorem state_eq_ok_iff {state : State} :
    State.reader.orDefault .disabled given = .ok state ↔
      ¬ WrongState given ∧ stateOf given = state := by
  cases given with
  | none => simp [Reader.orDefault, WrongState, stateOf]
  | some json =>
      change State.read json = .ok state ↔ _
      cases json with
      | str name =>
          by_cases enabled : name = "ENABLED"
          · simp [State.read, State.name, WrongState, stateOf, enabled]
          · by_cases disabled : name = "DISABLED" <;>
              simp [State.read, State.name, WrongState, stateOf, Json.kind,
                enabled, disabled]
      | _ => simp [State.read, WrongState, stateOf, Json.kind]

theorem default_eq_ok_iff {name : Option String} :
    Reader.text.nullable.orDefault none given = .ok name ↔
      ¬ WrongKind .string given ∧ nameOf given = name := by
  cases given with
  | none => simp [Reader.orDefault, WrongKind, nameOf]
  | some json =>
      cases json <;> simp [Reader.orDefault, Reader.nullable, Reader.text,
        Except.map, WrongKind, nameOf, Json.kind]

theorem variants_eq_ok_iff {variants : Table Json} :
    (Reader.json.table.nullAs .empty).orDefault .empty given = .ok variants ↔
      ¬ WrongKind .object given ∧ tableOf given = variants := by
  cases given with
  | none => simp [Reader.orDefault, WrongKind, tableOf]
  | some json =>
      cases json with
      | obj members =>
          change ((Reader.json.table.ofJson (.obj members)).map some).map _ =
            _ ↔ _
          rw [Reader.ofJson_table_json]
          simp [Except.map, WrongKind, tableOf, Json.kind]
      | _ =>
        simp [Reader.orDefault, Reader.nullAs, Reader.map, Reader.nullable,
          Reader.table, Except.map, WrongKind, tableOf, Json.kind]

theorem targeting_eq_ok_iff {targeting : Option Json} :
    Reader.json.nullable.orDefault none given = .ok targeting ↔
      presentOf given = targeting := by
  cases given with
  | none => simp [Reader.orDefault, presentOf]
  | some json =>
      cases json <;> simp [Reader.orDefault, Reader.nullable, Reader.json,
        Reader.ofTree, Except.map, presentOf]

end

theorem ofJson_eq_ok_iff {json : Json} {flag : Flag} :
    reader.ofJson json = .ok flag ↔
      ¬ Malformed json ∧ ofFields json = flag := by
  refine Record.ofJson_reader_eq_ok_iff.trans ?_
  simp only [Record.build_defaulted_eq_ok_iff, state_eq_ok_iff,
    default_eq_ok_iff, variants_eq_ok_iff, targeting_eq_ok_iff, Malformed,
    not_or, not_not]
  constructor
  · rintro ⟨form, built⟩
    -- field by field, from the last one back
    obtain ⟨_, _, three, rfl, rfl⟩ := built
    obtain ⟨_, _, two, ⟨rightVariants, rfl⟩, rfl⟩ := three
    obtain ⟨_, _, one, ⟨rightDefault, rfl⟩, rfl⟩ := two
    obtain ⟨_, _, none, ⟨rightState, rfl⟩, rfl⟩ := one
    cases none
    exact ⟨⟨form, rightState, rightDefault, rightVariants⟩, rfl⟩
  · rintro ⟨⟨form, rightState, rightDefault, rightVariants⟩, rfl⟩
    refine ⟨form, _, _, ?_, rfl, rfl⟩
    refine ⟨_, _, ?_, ⟨rightVariants, rfl⟩, rfl⟩
    refine ⟨_, _, ?_, ⟨rightDefault, rfl⟩, rfl⟩
    exact ⟨_, _, rfl, ⟨rightState, rfl⟩, rfl⟩

theorem reopen_eq_ok_iff {json : Json} {key : String} {draft : Draft} :
    reopen json key = .ok draft ↔
      ¬ Malformed json ∧ (ofFields json).toDraft key = draft := by
  unfold reopen
  cases read : reader.ofJson json with
  | ok flag =>
      obtain ⟨right, rfl⟩ := ofJson_eq_ok_iff.mp read
      simp [right]
  | error cause =>
      have wrong : Malformed json := by
        by_contra right
        exact nomatch read.symm.trans (ofJson_eq_ok_iff.mpr ⟨right, rfl⟩)
      simp [wrong]

/--
Opening fails exactly on malformed trees and otherwise gives the draft of the
flag that the fields stand for.  A tree that is no array is malformed when it is
no object or has a field of the wrong type; an array, when it has too many items
or one of the wrong type.
-/
theorem reopen_error_iff_malformed (json : Json) (key : String) :
    ((∃ error, reopen json key = .error error) ↔ Malformed json) ∧
      (¬ Malformed json →
        reopen json key = .ok ((ofFields json).toDraft key)) ∧
      (json.kind ≠ .array → (Malformed json ↔ MalformedObject json)) ∧
      ∀ items, json = .arr items →
        (Malformed json ↔ 4 < items.length ∨ WrongState items[0]? ∨
          WrongKind .string items[1]? ∨ WrongKind .object items[2]?) := by
  refine ⟨?_, fun right => reopen_eq_ok_iff.mpr ⟨right, rfl⟩,
    malformed_iff_of_ne_array, ?_⟩
  · constructor
    · rintro ⟨error, failed⟩
      by_contra right
      exact nomatch failed.symm.trans (reopen_eq_ok_iff.mpr ⟨right, rfl⟩)
    · intro wrong
      cases opened : reopen json key with
      | error error => exact ⟨error, rfl⟩
      | ok draft => exact absurd wrong (reopen_eq_ok_iff.mp opened).1
  · rintro items rfl
    exact malformed_arr_iff

def looseObject : Json :=
  .obj [("defaultVariant", .null), ("id", .str "7"), ("state", .bool true),
    ("targeting", .arr [.str "on"]), ("variants", .null)]

def positionalFlag : Json :=
  .arr [.str "ENABLED", .str "on", .obj [("on", .null), ("off", .arr [])]]

theorem reopen_error_iff_malformed_mixed :
    (¬ Malformed looseObject ∧ reopen looseObject "f" = .ok
        (toDraft ⟨.enabled, none, .empty, some (.arr [.str "on"])⟩ "f")) ∧
      (¬ Malformed positionalFlag ∧ reopen positionalFlag "f" = .ok
        (toDraft ⟨.enabled, some "on",
          .ofEntries [("on", .null), ("off", .arr [])], none⟩ "f")) ∧
      (Malformed (.obj [("variants", .arr [])]) ∧
        ∃ error, reopen (.obj [("variants", .arr [])]) "f" = .error error) ∧
      Malformed (.arr [.str "on"]) ∧
        ∃ error, reopen (.arr [.str "on"]) "f" = .error error := by
  obtain ⟨-, object, -⟩ := reopen_error_iff_malformed looseObject "f"
  obtain ⟨-, array, -⟩ := reopen_error_iff_malformed positionalFlag "f"
  obtain ⟨failsObject, -, plain, -⟩ :=
    reopen_error_iff_malformed (.obj [("variants", .arr [])]) "f"
  obtain ⟨failsArray, -, -, placed⟩ :=
    reopen_error_iff_malformed (.arr [.str "on"]) "f"
  have rightObject : ¬ Malformed looseObject := by decide +kernel
  have rightArray : ¬ Malformed positionalFlag := by decide +kernel
  have wrongObject := (plain (by decide)).mpr (by decide +kernel)
  have wrongArray := (placed _ rfl).mpr (by decide +kernel)
  exact ⟨⟨rightObject, object rightObject⟩, ⟨rightArray, array rightArray⟩,
    ⟨wrongObject, failsObject.mpr wrongObject⟩, wrongArray,
    failsArray.mpr wrongArray⟩

theorem exists_opened_array :
    ¬ ∀ (json : Json) (key : String),
      (∃ error, reopen json key = .error error) ↔ MalformedObject json := by
  intro always
  obtain ⟨error, failed⟩ := (always (.arr []) "f").mpr (.inl (by decide))
  exact nomatch failed

end FeatureFlags.Flag
