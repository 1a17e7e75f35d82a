import FeatureFlags.Shape.Record

/-!
# Values of variants

All variants of a flag share a type.  The form holds a value as a scalar; the
value of an object flag is the text of the object, so that a half-typed one can
be held too.
-/

namespace FeatureFlags

inductive ValueType
  | boolean
  | string
  | number
  | object
  deriving DecidableEq

namespace ValueType

def name : ValueType → String
  | boolean => "boolean"
  | string => "string"
  | number => "number"
  | object => "object"

def all : List ValueType := [boolean, string, number, object]

def ofName? (name : String) : Option ValueType :=
  all.find? fun type => type.name == name

/--
The type of a flag, judged by the value of its first variant.  An array counts
as an object; without a value, or with `null`, the type is a string's.
-/
def infer : Option Json → ValueType
  | some (.bool _) => boolean
  | some (.num _) => number
  | some (.obj _) => object
  | some (.arr _) => object
  | some (.str _) => string
  | some .null => string
  | none => string

instance : Inhabited ValueType := ⟨boolean⟩

def toJson (type : ValueType) : Json := .str type.name

def readName (name : String) : Except Shape.Mismatch ValueType :=
  match ofName? name with
  | some type => .ok type
  | none => .error (.unknownChoice name (all.map ValueType.name))

/-- A type is given by its name, or by an object with its name over `null`. -/
def read : Json → Except Shape.Mismatch ValueType
  | .str name => readName name
  | .obj [(name, content)] =>
    match readName name, content with
    | .error mismatch, _ => .error mismatch
    | .ok type, .null => .ok type
    | .ok _, other => .error (.wrongType (.of other) .unit)
  | .obj _ => .error .notSingleKey
  | other => .error (.wrongType (.of other) .textOrTable)

def reader : Shape.Reader ValueType := .ofTree read

end ValueType

inductive FormValue
  | bool (value : Bool)
  | number (value : Json.Number)
  | text (text : String)
  | null
  deriving DecidableEq

namespace FormValue

def ofNat (value : Nat) (fits : Json.Fits value) : FormValue :=
  number (.whole value fits)

def zero : ValueType → FormValue
  | .boolean => bool false
  | .string => text ""
  | .number => ofNat 0 (by decide)
  | .object => text "\x7b\x7d"

def toJson : FormValue → Json
  | bool value => .bool value
  | number value => .num value
  | text value => .str value
  | null => .null

/--
The form's value for one of the engine.  Every value of an object flag, and any
array or object of another, becomes its text.
-/
def ofJson (type : ValueType) (json : Json) : FormValue :=
  match type, json with
  | .object, json => text json.compact
  | _, .bool value => bool value
  | _, .num value => number value
  | _, .str value => text value
  | _, .null => null
  | _, json => text json.compact

def read : Json → Except Shape.Mismatch FormValue
  | .bool value => .ok (bool value)
  | .num value => .ok (number value)
  | .str value => .ok (text value)
  | .null => .ok null
  | _ => .error (.noAlternative "VariantValue")

def reader : Shape.Reader FormValue := .ofTree read

end FormValue

end FeatureFlags
