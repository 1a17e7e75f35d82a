import FeatureFlags.Draft.Condition
import FeatureFlags.Draft.Value

/-!
# Drafts

A draft is a flag as the editor holds it: variants, a default, ordered rules and
a fallback.  The first rule whose condition holds decides the variant.
-/

namespace FeatureFlags

structure Variant where
  name : String
  value : FormValue
  deriving DecidableEq

structure Rule where
  condition : Condition
  target : String
  deriving DecidableEq

def Rule.placeholder (target : String) : Rule := ⟨.blank, target⟩

structure Draft where
  key : String
  description : Option String
  enabled : Bool
  type : ValueType
  variants : List Variant
  defaultVariant : String
  hasTargeting : Bool
  rules : List Rule
  hasDefaultRule : Bool
  defaultRule : String
  deriving DecidableEq

namespace Draft

def firstVariantName? (draft : Draft) : Option String :=
  draft.variants.head?.map Variant.name

def targetWithoutVariants : String := "true"

def booleanVariants : List Variant :=
  [⟨"true", .bool true⟩, ⟨"false", .bool false⟩]

/-- A new boolean flag, on, that serves `false`. -/
def new (key : String) : Draft where
  key
  description := none
  enabled := true
  type := .boolean
  variants := booleanVariants
  defaultVariant := "false"
  hasTargeting := false
  rules := [.placeholder "true"]
  hasDefaultRule := false
  defaultRule := "false"

end Draft

def Variant.toJson (variant : Variant) : Json :=
  .obj [("name", .str variant.name), ("value", variant.value.toJson)]

def Rule.toJson (rule : Rule) : Json :=
  .obj [("condition", rule.condition.toJson), ("targetVariant", .str rule.target)]

def optionalText : Option String → Json
  | some text => .str text
  | none => .null

def Draft.toJson (draft : Draft) : Json :=
  .obj [
    ("flagKey", .str draft.key),
    ("description", optionalText draft.description),
    ("state", .bool draft.enabled),
    ("type", draft.type.toJson),
    ("variants", .arr (draft.variants.map Variant.toJson)),
    ("defaultVariant", .str draft.defaultVariant),
    ("hasTargeting", .bool draft.hasTargeting),
    ("rules", .arr (draft.rules.map Rule.toJson)),
    ("hasDefaultRule", .bool draft.hasDefaultRule),
    ("defaultRule", .str draft.defaultRule)]

open Shape (Record Reader)

def Variant.reader : Reader Variant :=
  (Record.of Variant.mk
    |>.required "name" Reader.text
    |>.required "value" FormValue.reader).reader "Variant"

def Rule.reader : Reader Rule :=
  (Record.of Rule.mk
    |>.defaulted "condition" Condition.reader .blank
    |>.required "targetVariant" Reader.text).reader "Rule"

def Draft.reader : Reader Draft :=
  (Record.of Draft.mk
    |>.required "flagKey" Reader.text
    |>.defaulted "description" Reader.text.nullable none
    |>.defaulted "state" Reader.boolean false
    |>.defaulted "type" ValueType.reader .boolean
    |>.required "variants" Variant.reader.list
    |>.defaulted "defaultVariant" Reader.text ""
    |>.defaulted "hasTargeting" Reader.boolean false
    |>.defaulted "rules" Rule.reader.list []
    |>.defaulted "hasDefaultRule" Reader.boolean false
    |>.defaulted "defaultRule" Reader.text "").reader "FlagDraft"

end FeatureFlags
