import FeatureFlags.Json.Fault
import FeatureFlags.Json.Printer
import FeatureFlags.Text.CommaList
import FeatureFlags.Text.Quoted

/-!
# Values of the wrong shape

A value that parses may still not be what its reader expects.  `Mismatch` holds
the causes and `Mismatch.message` their wording.
-/

namespace FeatureFlags.Shape

inductive Found
  | null
  | boolean (value : Bool)
  | number (value : Json.Number)
  | text (text : String)
  | sequence
  | table

def Found.of : Json → Found
  | .null => null
  | .bool value => boolean value
  | .num value => number value
  | .str value => text value
  | .arr _ => sequence
  | .obj _ => table

def Found.message : Found → String
  | null => "null"
  | boolean true => "boolean `true`"
  | boolean false => "boolean `false`"
  | number (.whole value fits) =>
    "integer `" ++ String.ofList (Json.Number.whole value fits).chars ++ "`"
  | number (.real value) =>
    "floating point `" ++ String.ofList (Json.Number.real value).chars ++ "`"
  | text value => "string " ++ Text.quoted value
  | sequence => "sequence"
  | table => "map"

inductive Expected
  | boolean
  | text
  | sequence
  | table
  | unit
  | textOrTable
  | record (name : String)

def Expected.message : Expected → String
  | boolean => "a boolean"
  | text => "a string"
  | sequence => "a sequence"
  | table => "a map"
  | unit => "unit"
  | textOrTable => "string or map"
  | record name => "struct " ++ name

inductive Mismatch
  | wrongType (found : Found) (expected : Expected)
  | missing (field : String)
  | repeated (field : String)
  /-- The array form of a record ends before a field that it has to give. -/
  | tooShort (length : Nat) (record : String) (fields : Nat)
  | tooLong (length : Nat)
  | notSingleKey
  | unknownChoice (given : String) (choices : List String)
  | noAlternative (type : String)
  | neither (first second : String) (found : Json)

def elements (count : Nat) : String :=
  Nat.repr count ++ (if count = 1 then " element" else " elements")

def ticked (text : String) : String := "`" ++ text ++ "`"

def Mismatch.message : Mismatch → String
  | wrongType found expected =>
    "invalid type: " ++ found.message ++ ", expected " ++ expected.message
  | missing field => "missing field " ++ ticked field
  | repeated field => "duplicate field " ++ ticked field
  | tooShort length record fields =>
    "invalid length " ++ Nat.repr length ++ ", expected struct " ++ record ++
      " with " ++ elements fields
  | tooLong length =>
    "invalid length " ++ Nat.repr length ++ ", expected fewer elements in array"
  | notSingleKey => "invalid value: map, expected map with a single key"
  | unknownChoice given choices =>
    "unknown variant " ++ ticked given ++ ", expected one of " ++
      Text.join ", " (choices.map ticked)
  | noAlternative type =>
    "data did not match any variant of untagged enum " ++ type
  | neither first second found =>
    "expected \"" ++ first ++ "\" or \"" ++ second ++ "\", found " ++
      found.compact

inductive Cause
  | flaw (flaw : Json.Flaw)
  | mismatch (mismatch : Mismatch)

def Cause.message : Cause → String
  | flaw cause => cause.message
  | mismatch cause => cause.message

abbrev TextError := Json.Located Cause

def TextError.message (error : TextError) : String :=
  error.cause.message ++ error.place.suffix

end FeatureFlags.Shape
