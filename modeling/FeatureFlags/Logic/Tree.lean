import FeatureFlags.Json.Printer
import FeatureFlags.Text.CommaList

/-!
# Logic trees

The evaluator takes conditions as logic trees: an object with one key, the
operator, over an array of operands.  An attribute is an operand of the form
`{"var": path}`.
-/

namespace FeatureFlags.Logic

def ifKey : String := "if"

def varKey : String := "var"

def notKey : String := "!"

def inKey : String := "in"

def semVerKey : String := "sem_ver"

def single (key : String) (content : Json) : Json := .obj [(key, content)]

def call (operator : String) (operands : List Json) : Json :=
  single operator (.arr operands)

def reference (path : String) : Json := single varKey (.str path)

def negation (inner : Json) : Json := single notKey inner

def membership (subject haystack : Json) : Json :=
  call inKey [subject, haystack]

def firstMember? : Json → Option (String × Json)
  | .obj (member :: _) => some member
  | _ => none

mutual

/--
An operand as the text of an edit field: a string as it is, the items of an
array with commas between, and anything else as JSON.
-/
def operandText : Json → String
  | .str text => text
  | .arr items => Text.join "," (operandTexts items)
  | .null => Json.compact .null
  | .bool value => Json.compact (.bool value)
  | .num value => Json.compact (.num value)
  | .obj members => Json.compact (.obj members)

def operandTexts : List Json → List String
  | [] => []
  | item :: items => operandText item :: operandTexts items

end

def referencePath? (operand : Json) : Option String :=
  (operand.member? varKey).map operandText

end FeatureFlags.Logic
