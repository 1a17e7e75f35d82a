import FeatureFlags.Shape.Reader

/-!
# Records

A record has named fields in a fixed order.  It is read from an object, in
which unknown names are ignored, or from an array of its fields in order.  Each
field says what stands in for it when it is absent, if anything does.

All fields are judged before a fault is reported.  In an object the fault of the
member that comes first counts, and an absent field only when every member is
in order.  In an array the fault of the field that comes first counts.
-/

namespace FeatureFlags.Shape

inductive FieldFault
  | absent
  | wrong (mismatch : Mismatch)

/-- A value, or the faults of its fields in their order. -/
abbrev Judged (α : Type) := Except (Entries FieldFault) α

structure Source where
  form : Form
  find? : String → Option Json

structure Record (α : Type) where
  fields : Entries Keeper
  build : Source → Judged α

namespace Record

variable {α β : Type}

def of (value : α) : Record α where
  fields := []
  build _ := .ok value

/-- Both judgements: the faults of the first come before those of the second. -/
def both (first : Judged (α → β)) (second : Judged α) : Judged β :=
  match first, second with
  | .ok f, .ok value => .ok (f value)
  | .ok _, .error faults => .error faults
  | .error faults, .ok _ => .error faults
  | .error faults, .error others => .error (faults ++ others)

def judgeField (name : String) (reader : Reader α) (standIn : Form → Option α)
    (source : Source) : Judged α :=
  match source.find? name with
  | some json =>
    match reader.ofJson json with
    | .ok value => .ok value
    | .error mismatch => .error [(name, .wrong mismatch)]
  | none =>
    match standIn source.form with
    | some value => .ok value
    | none => .error [(name, .absent)]

def field (record : Record (α → β)) (name : String) (reader : Reader α)
    (standIn : Form → Option α) : Record β where
  fields := record.fields ++ [(name, reader.keep)]
  build source :=
    both (record.build source) (judgeField name reader standIn source)

def required (record : Record (α → β)) (name : String) (reader : Reader α) :
    Record β :=
  record.field name reader fun _ => none

def defaulted (record : Record (α → β)) (name : String) (reader : Reader α)
    (value : α) : Record β :=
  record.field name reader fun _ => some value

/-- The field may be left out of an object, but not of an array. -/
def optional (record : Record (Option α → β)) (name : String)
    (reader : Reader α) : Record β :=
  record.field name reader.nullable fun
    | .named => some none
    | .positional => none

def wrong? (faults : Entries FieldFault) (name : String) : Option Mismatch :=
  match Entries.value? name faults with
  | some (.wrong mismatch) => some mismatch
  | _ => none

def absent? : String × FieldFault → Option String
  | (name, .absent) => some name
  | _ => none

/-- The mismatch of an object: of its first faulty member, or else of a field. -/
def namedMismatch (names : List String) (faults : Entries FieldFault) :
    Mismatch :=
  match names.findSome? (wrong? faults) with
  | some mismatch => mismatch
  | none => .missing ((faults.findSome? absent?).getD "")

def positionalMismatch (name : String) (fields : List String) :
    Entries FieldFault → Mismatch
  | (_, .wrong mismatch) :: _ => mismatch
  | (field, .absent) :: _ =>
    .tooShort (fields.idxOf field) name fields.length
  | [] => .tooShort 0 name fields.length

def ofMembers (record : Record α) (members : Entries Json) :
    Except Mismatch α :=
  (record.build ⟨.named, fun name => Entries.value? name members⟩).mapError
    (namedMismatch (Entries.names members))

def ofFields (name : String) (record : Record α) (kept : Entries Json) :
    Except Mismatch α :=
  (record.build ⟨.positional, fun name => Entries.value? name kept⟩).mapError
    (positionalMismatch name (Entries.names record.fields))

def ofItems (name : String) (record : Record α) (items : List Json) :
    Except Mismatch α :=
  match record.ofFields name ((Entries.names record.fields).zip items) with
  | .error mismatch => .error mismatch
  | .ok value =>
    if record.fields.length < items.length then .error (.tooLong items.length)
    else .ok value

def judge (name : String) (record : Record α) (form : Form)
    (kept : Entries Json) : Option Mismatch :=
  match form with
  | .named => Reader.mismatch? (record.ofMembers kept)
  | .positional => Reader.mismatch? (record.ofFields name kept)

def reader (name : String) (record : Record α) : Reader α where
  keep := .record name record.fields (record.judge name)
  ofJson
    | .obj members => record.ofMembers members
    | .arr items => record.ofItems name items
    | other => .error (.wrongType (.of other) (.record name))

end Record

end FeatureFlags.Shape
