import FeatureFlags.Draft.Basic
import FeatureFlags.Engine.Document
import FeatureFlags.Json.Reader
import FeatureFlags.Logic.Chain
import FeatureFlags.Logic.Condition

/-!
# Compiling drafts

A draft becomes a flag of the engine.  The only thing that can go wrong is the
text of an object variant that is no JSON.  Of variants with the same name the
first gives the place and the last the value.
-/

namespace FeatureFlags

structure CompileError where
  variant : String
  cause : Json.SyntaxError
  deriving DecidableEq

def CompileError.message (error : CompileError) : String :=
  "JSON error: " ++ error.cause.message

/-- The engine's value of a variant: text of an object flag is parsed. -/
def Variant.compile (type : ValueType) (variant : Variant) :
    Except CompileError Json :=
  match type, variant.value with
  | .object, .text source =>
    (Json.parse source).mapError fun cause => ⟨variant.name, cause⟩
  | _, value => .ok value.toJson

/-- The engine's values of the variants, or the error of the first that fails. -/
def compileVariants (type : ValueType) :
    List Variant → Except CompileError (Entries Json)
  | [] => .ok []
  | variant :: rest =>
    match variant.compile type with
    | .error error => .error error
    | .ok value =>
      (compileVariants type rest).map ((variant.name, value) :: ·)

def Rule.toBranch (rule : Rule) : Logic.Branch :=
  ⟨Logic.ofCondition rule.condition, rule.target⟩

namespace Draft

def chain (draft : Draft) : Logic.Chain where
  branches := draft.rules.map Rule.toBranch
  fallback := if draft.hasDefaultRule then some draft.defaultRule else none

def targeting? (draft : Draft) : Option Json :=
  if draft.hasTargeting then some draft.chain.toJson else none

def toFlag (draft : Draft) : Except CompileError Flag :=
  (compileVariants draft.type draft.variants).map fun variants =>
    { state := .ofBool draft.enabled
      defaultVariant := some draft.defaultVariant
      variants := .ofEntries variants
      targeting := draft.targeting? }

def compile (draft : Draft) : Except CompileError Document :=
  draft.toFlag.map (Document.single draft.key)

end Draft

end FeatureFlags
