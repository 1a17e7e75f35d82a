import FeatureFlags.Draft.Basic
import FeatureFlags.Engine.Document
import FeatureFlags.Logic.Chain
import FeatureFlags.Logic.Condition

/-!
# Reopening flags

A flag of the engine becomes a draft again.  This is best effort: what is absent
gets a default, and a condition that the form cannot express becomes the blank
condition, so every flag can be opened.
-/

namespace FeatureFlags

structure ReopenError where
  cause : Shape.Mismatch

def ReopenError.message (error : ReopenError) : String :=
  "Flag document is malformed: " ++ error.cause.message

def nonempty? (text : Option String) : Option String :=
  text.filter (· ≠ "")

namespace Flag

def inferredType (flag : Flag) : ValueType :=
  .infer (flag.variants.first?.map Prod.snd)

def draftVariants (flag : Flag) : List Variant :=
  flag.variants.entries.map fun entry =>
    ⟨entry.1, .ofJson flag.inferredType entry.2⟩

def firstVariantName? (flag : Flag) : Option String :=
  flag.variants.first?.map Prod.fst

/-- The default variant, or the first one when none is named. -/
def openDefault (flag : Flag) : String :=
  ((nonempty? flag.defaultVariant).or flag.firstVariantName?).getD ""

def chainItems? (flag : Flag) : Option (List Json) :=
  (flag.targeting.bind Logic.chainItems?).filter fun items => !items.isEmpty

def chainSplit (flag : Flag) : Logic.Split :=
  Logic.split (flag.chainItems?.getD [])

def ruleOf (pair : Json × Json) : Rule :=
  ⟨Logic.toCondition pair.1, Logic.operandText pair.2⟩

def placeholderTarget (flag : Flag) : String :=
  flag.firstVariantName?.getD Draft.targetWithoutVariants

/-- The rules of the chain, or a placeholder when it has none. -/
def draftRules (flag : Flag) : List Rule :=
  match flag.chainSplit.pairs with
  | [] => [.placeholder flag.placeholderTarget]
  | pairs => pairs.map ruleOf

/-- The draft of a flag under a key, which the flag does not know itself. -/
def toDraft (flag : Flag) (key : String) : Draft :=
  let fallback := flag.chainSplit.fallback.map Logic.operandText
  { key
    description := none
    enabled := flag.state.isEnabled
    type := flag.inferredType
    variants := flag.draftVariants
    defaultVariant := flag.openDefault
    hasTargeting := flag.chainItems?.isSome
    rules := flag.draftRules
    hasDefaultRule := fallback.isSome
    defaultRule := fallback.getD flag.openDefault }

def reopen (json : Json) (key : String) : Except ReopenError Draft :=
  match reader.ofJson json with
  | .ok flag => .ok (flag.toDraft key)
  | .error cause => .error ⟨cause⟩

end Flag

def Document.drafts (document : Document) : List Draft :=
  document.flags.entries.map fun entry => entry.2.toDraft entry.1

end FeatureFlags
