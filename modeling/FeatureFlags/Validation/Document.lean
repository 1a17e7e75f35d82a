import FeatureFlags.Compile
import FeatureFlags.Validation.Targeting

/-!
# Violations in documents and drafts

Every check is made and every violation collected, flag by flag in the order of
the document.  A draft is checked by way of the document it compiles to, and
for variant names used twice, which that document no longer shows.
-/

namespace FeatureFlags.Validation

def stateViolations (flag : String) (fields : Entries Json) : List Violation :=
  match Entries.value? "state" fields with
  | none => [.missingField flag "state"]
  | some (.str name) =>
    if name = "ENABLED" ∨ name = "DISABLED" then []
    else [.invalidState flag name]
  | some other => [.invalidState flag other.compact]

def usableVariants (fields : Entries Json) : Option (Entries Json) :=
  match Entries.value? "variants" fields with
  | some (.obj variants) => some variants
  | _ => none

def variantViolations (flag : String) (expected : Json.Kind)
    (variant : String × Json) : List Violation :=
  (if variant.1 = "" then [.emptyVariantName flag] else []) ++
    (if variant.2.kind = expected then []
     else [.mixedKinds flag variant.1 expected variant.2.kind])

def variantsViolations (flag : String) (fields : Entries Json) :
    List Violation :=
  match Entries.value? "variants" fields with
  | none => [.missingField flag "variants"]
  | some (.obj []) => [.noVariants flag]
  | some (.obj (first :: rest)) =>
    (first :: rest).flatMap (variantViolations flag first.2.kind)
  | some other => [.wrongKind flag "variants" .object other.kind]

def defaultViolations (flag : String) (fields : Entries Json) :
    List Violation :=
  match Entries.value? "defaultVariant" fields with
  | none => [.missingField flag "defaultVariant"]
  | some (.str name) =>
    if isUnknown (usableVariants fields) name then
      [.unknownDefault flag name]
    else []
  | some other => [.wrongKind flag "defaultVariant" .string other.kind]

def targetingViolations (flag : String) (fields : Entries Json) :
    List Violation :=
  match Entries.value? "targeting" fields with
  | none => []
  | some .null => []
  | some (.obj members) =>
    treeViolations flag (usableVariants fields) members
  | some other => [.wrongKind flag "targeting" .object other.kind]

def keyViolations (key : String) : List Violation :=
  if key = "" then [.emptyFlagKey] else []

def flagViolations (key : String) (flag : Json) : List Violation :=
  keyViolations key ++
    match flag with
    | .obj fields =>
      stateViolations key fields ++ variantsViolations key fields ++
        defaultViolations key fields ++ targetingViolations key fields
    | _ => [.flagNotObject key]

def violations (document : Json) : List Violation :=
  match document with
  | .obj members =>
    match Entries.value? "flags" members with
    | none => [.missingFlags]
    | some (.obj flags) =>
      flags.flatMap fun entry => flagViolations entry.1 entry.2
    | some _ => [.flagsNotObject]
  | _ => [.rootNotObject]

/--
The names used more than once, in the order of their second uses.  The names
before are those `seen`, and `reported` holds the ones used twice already.
-/
def repeatedNames (seen reported : List String) : List String → List String
  | [] => []
  | name :: names =>
    if name ∈ seen then
      if name ∈ reported then repeatedNames seen reported names
      else name :: repeatedNames seen (name :: reported) names
    else repeatedNames (name :: seen) reported names

def duplicateViolations (draft : Draft) : List Violation :=
  (repeatedNames [] [] (draft.variants.map Variant.name)).map
    (.duplicateVariant draft.key)

def draftViolations (draft : Draft) (document : Document) : List Violation :=
  duplicateViolations draft ++ violations document.toJson

end FeatureFlags.Validation
