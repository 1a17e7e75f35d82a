import FeatureFlags.Shape.Record

/-!
# Flags of the engine

A flag as the rule evaluator consumes it.  Every field may be absent when a flag
is read, so that a flag written only in part can still be opened.
-/

namespace FeatureFlags

inductive State
  | enabled
  | disabled
  deriving DecidableEq

namespace State

def name : State → String
  | enabled => "ENABLED"
  | disabled => "DISABLED"

def ofBool : Bool → State
  | true => enabled
  | false => disabled

def isEnabled : State → Bool
  | enabled => true
  | disabled => false

def toJson (state : State) : Json := .str state.name

/-- A state is given by its name or as a truth value; `null` disables. -/
def read (json : Json) : Except Shape.Mismatch State :=
  let neither := .error (.neither enabled.name disabled.name json)
  match json with
  | .str name =>
    if name = enabled.name then .ok enabled
    else if name = disabled.name then .ok disabled
    else neither
  | .bool value => .ok (ofBool value)
  | .null => .ok disabled
  | _ => neither

def reader : Shape.Reader State := .ofTree read

end State

structure Flag where
  state : State
  defaultVariant : Option String
  variants : Table Json
  targeting : Option Json
  deriving DecidableEq

namespace Flag

def optionalMember (name : String) : Option Json → Entries Json
  | some json => [(name, json)]
  | none => []

def toJson (flag : Flag) : Json :=
  .obj <|
    ("state", flag.state.toJson) ::
      (optionalMember "defaultVariant" (flag.defaultVariant.map .str) ++
        ("variants", .obj flag.variants.entries) ::
          optionalMember "targeting" flag.targeting)

open Shape (Record Reader) in
def reader : Reader Flag :=
  (Record.of Flag.mk
    |>.defaulted "state" State.reader .disabled
    |>.defaulted "defaultVariant" Reader.text.nullable none
    |>.defaulted "variants" (Reader.json.table.nullAs .empty) .empty
    |>.defaulted "targeting" Reader.json.nullable none).reader "EngineFlag"

end Flag

end FeatureFlags
