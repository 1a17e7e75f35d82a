import FeatureFlags.Shape.Keep

/-!
# Readers

A `Reader` takes a value of some type from a tree or straight from a text.  From
a text it first keeps the part that its shape asks for and then takes the value
from that part as from any tree.
-/

namespace FeatureFlags.Shape

structure Reader (α : Type) where
  keep : Keeper
  ofJson : Json → Except Mismatch α

namespace Reader

variable {α β : Type}

def mismatch? : Except Mismatch α → Option Mismatch
  | .ok _ => none
  | .error mismatch => some mismatch

/-- Reads the whole value first and then looks at it. -/
def ofTree (read : Json → Except Mismatch α) : Reader α where
  keep := .judged fun json => mismatch? (read json)
  ofJson := read

def json : Reader Json := ofTree .ok

def boolean : Reader Bool := ofTree fun
  | .bool value => .ok value
  | other => .error (.wrongType (.of other) .boolean)

def text : Reader String where
  keep := .text
  ofJson
    | .str text => .ok text
    | other => .error (.wrongType (.of other) .text)

def map (f : α → β) (reader : Reader α) : Reader β where
  keep := reader.keep
  ofJson json := (reader.ofJson json).map f

def nullable (reader : Reader α) : Reader (Option α) where
  keep := reader.keep.nullable
  ofJson
    | .null => .ok none
    | other => (reader.ofJson other).map some

def nullAs (value : α) (reader : Reader α) : Reader α :=
  reader.nullable.map fun read => read.getD value

def readItems (read : Json → Except Mismatch α) :
    List Json → Except Mismatch (List α)
  | [] => .ok []
  | item :: items =>
    match read item with
    | .error mismatch => .error mismatch
    | .ok value => (readItems read items).map (value :: ·)

def readMembers (read : Json → Except Mismatch α) :
    Entries Json → Except Mismatch (Entries α)
  | [] => .ok []
  | (name, member) :: members =>
    match read member with
    | .error mismatch => .error mismatch
    | .ok value => (readMembers read members).map ((name, value) :: ·)

def list (reader : Reader α) : Reader (List α) := ofTree fun
  | .arr items => readItems reader.ofJson items
  | other => .error (.wrongType (.of other) .sequence)

/-- An object with arbitrary names; of a repeated name the last value counts. -/
def table (reader : Reader α) : Reader (Table α) where
  keep := reader.keep.table
  ofJson
    | .obj members => (readMembers reader.ofJson members).map .ofEntries
    | other => .error (.wrongType (.of other) .table)

def locate (text : List Char) : Halt → TextError
  | .placed cause left =>
    ⟨cause, Json.placeAfter (Json.byteCount text - left) text⟩
  | .unplaced mismatch rest =>
    ⟨.mismatch mismatch,
      Json.placeAfter (Json.byteCount text - Json.byteCount rest) text⟩

def ofChars (reader : Reader α) (cs : List Char) : Except Halt α :=
  match reader.keep Json.depthLimit cs with
  | .error halt => .error halt
  | .ok (kept, rest) =>
    match Json.atEnd rest with
    | .error stop => .error (.ofStop stop)
    | .ok () => (reader.ofJson kept).mapError (Halt.before · rest)

def ofText (reader : Reader α) (text : String) : Except TextError α :=
  (reader.ofChars text.toList).mapError (locate text.toList)

end Reader

end FeatureFlags.Shape
