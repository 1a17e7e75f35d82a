import FeatureFlags.Compile
import FeatureFlags.Reopen

/-!
# Exchange with the flag store

The store sends a flag with its name and description, and takes one in the body
of a save request.  Both hold the fields of the engine's flag side by side with
their own; an empty description or default is sent as `null`.
-/

namespace FeatureFlags

def optionalTable : Option (Table Json) → Json
  | some table => .obj table.entries
  | none => .null

structure StoredFlag where
  id : String
  name : String
  description : Option String
  state : State
  defaultVariant : Option String
  variants : Option (Table Json)
  targeting : Option Json
  deriving DecidableEq

namespace StoredFlag

/-- The flag goes by its name, or by its id when it has none. -/
def key (stored : StoredFlag) : String :=
  if stored.name = "" then stored.id else stored.name

def flag (stored : StoredFlag) : Flag where
  state := stored.state
  defaultVariant := stored.defaultVariant
  variants := stored.variants.getD .empty
  targeting := stored.targeting

def toDraft (stored : StoredFlag) : Draft :=
  { stored.flag.toDraft stored.key with
    description := nonempty? stored.description }

def toJson (stored : StoredFlag) : Json :=
  .obj [
    ("flagId", .str stored.id),
    ("name", .str stored.name),
    ("description", optionalText stored.description),
    ("state", stored.state.toJson),
    ("defaultVariant", optionalText stored.defaultVariant),
    ("variants", optionalTable stored.variants),
    ("targeting", stored.targeting.getD .null)]

open Shape (Record Reader) in
def reader : Reader StoredFlag :=
  (Record.of StoredFlag.mk
    |>.defaulted "flagId" (Reader.text.nullAs "") ""
    |>.defaulted "name" (Reader.text.nullAs "") ""
    |>.defaulted "description" Reader.text.nullable none
    |>.defaulted "state" State.reader .disabled
    |>.defaulted "defaultVariant" Reader.text.nullable none
    |>.defaulted "variants" Reader.json.table.nullable none
    |>.defaulted "targeting" Reader.json.nullable none).reader "FlagDto"

end StoredFlag

structure SaveRequest where
  name : String
  description : Option String
  state : State
  defaultVariant : Option String
  variants : Option (Table Json)
  targeting : Option Json
  deriving DecidableEq

namespace SaveRequest

def ofFlag (draft : Draft) (flag : Flag) : SaveRequest where
  name := draft.key
  description := nonempty? draft.description
  state := flag.state
  defaultVariant := nonempty? flag.defaultVariant
  variants := some flag.variants
  targeting := flag.targeting

def ofDraft (draft : Draft) : Except CompileError SaveRequest :=
  draft.toFlag.map (ofFlag draft)

def toJson (request : SaveRequest) : Json :=
  .obj [
    ("name", .str request.name),
    ("description", optionalText request.description),
    ("state", request.state.toJson),
    ("defaultVariant", optionalText request.defaultVariant),
    ("variants", optionalTable request.variants),
    ("targeting", request.targeting.getD .null)]

open Shape (Record Reader) in
def reader : Reader SaveRequest :=
  (Record.of SaveRequest.mk
    |>.required "name" Reader.text
    |>.optional "description" Reader.text
    |>.required "state" State.reader
    |>.optional "defaultVariant" Reader.text
    |>.optional "variants" Reader.json.table
    |>.optional "targeting" Reader.json).reader "SaveFlagRequest"

end SaveRequest

end FeatureFlags
