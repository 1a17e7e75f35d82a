import FeatureFlags.Draft.Condition
import FeatureFlags.Logic.Chain
import FeatureFlags.Validation.Violation

/-!
# Violations in targeting

A flag's targeting is a chain of conditions and targets.  Rules are numbered
from one.  The variants are `none` when the flag's variants cannot be used; then
no reference to a variant is checked, so that one defect is not reported twice.
-/

namespace FeatureFlags.Validation

open Logic

/-- A reference to an attribute has a non-empty path; other operands are free. -/
def isValidOperand (operand : Json) : Bool :=
  match operand.member? varKey with
  | none => true
  | some (.str path) => path ≠ ""
  | some _ => false

def operandViolations (flag : String) (rule : Nat) (operands : List Json) :
    List Violation :=
  operands.filterMap fun operand =>
    if isValidOperand operand then none
    else some (.invalidReference flag rule)

def comparatorOf (operands : List Json) : String :=
  match (operands[1]? : Option Json) with
  | some (.str comparator) => comparator
  | _ => ""

def comparatorViolations (flag : String) (rule : Nat) (operator : String)
    (operands : List Json) : List Violation :=
  if operator = semVerKey ∧ comparatorOf operands ∉ comparators then
    [.unsupportedComparator flag rule (comparatorOf operands)]
  else []

/-- What a negation negates: its content, or the only item of its content. -/
def negated : Json → Json
  | .arr [inner] => inner
  | content => content

theorem negated_eq_self {content : Json} (h : ∀ item, content ≠ .arr [item]) :
    negated content = content := by
  unfold negated
  split
  · rename_i item
    exact absurd rfl (h item)
  · rfl

theorem sizeOf_negated_le (content : Json) :
    sizeOf (negated content) ≤ sizeOf content := by
  unfold negated
  split
  · simp
    omega
  · exact Nat.le_refl _

def conditionViolations (flag : String) (rule : Nat) : Json → List Violation
  | .obj [(operator, content)] =>
    if operator = notKey then
      have := sizeOf_negated_le content
      conditionViolations flag rule (negated content)
    else
      match content with
      | .arr operands =>
        operandViolations flag rule operands ++
          comparatorViolations flag rule operator operands
      | _ => [.operandsNotArray flag rule operator]
  | _ => [.malformedCondition flag rule]
  termination_by condition => sizeOf condition
  decreasing_by
    simp
    omega

theorem conditionViolations_negation (flag : String) (rule : Nat)
    (content : Json) :
    conditionViolations flag rule (negation content) =
      conditionViolations flag rule (negated content) := by
  rw [negation, single, conditionViolations.eq_def]
  simp

def isUnknown (variants : Option (Entries Json)) (name : String) : Bool :=
  match variants with
  | some variants => !variants.names.contains name
  | none => false

def targetViolations (flag : String) (rule : Nat)
    (variants : Option (Entries Json)) (target : Json) : List Violation :=
  match target with
  | .str name =>
    if isUnknown variants name then [.unknownTarget flag rule name] else []
  | _ => [.targetNotString flag rule]

def fallbackViolations (flag : String) (variants : Option (Entries Json))
    (fallback : Option Json) : List Violation :=
  match fallback with
  | none => []
  | some (.str name) =>
    if isUnknown variants name then [.unknownFallback flag name] else []
  | some _ => [.fallbackNotString flag]

def ruleViolations (flag : String) (variants : Option (Entries Json)) :
    Nat → List (Json × Json) → List Violation
  | _, [] => []
  | rule, (condition, target) :: pairs =>
    conditionViolations flag rule condition ++
      targetViolations flag rule variants target ++
        ruleViolations flag variants (rule + 1) pairs

def lengthViolations (flag : String) (items : List Json) : List Violation :=
  match items with
  | [] => [.emptyChain flag]
  | [_] => [.fallbackOnly flag]
  | _ => []

def chainViolations (flag : String) (variants : Option (Entries Json))
    (items : List Json) : List Violation :=
  let parts := split items
  lengthViolations flag items ++
    ruleViolations flag variants 1 parts.pairs ++
      fallbackViolations flag variants parts.fallback

/-- The violations of a targeting object; an empty one means no targeting. -/
def treeViolations (flag : String) (variants : Option (Entries Json))
    (members : Entries Json) : List Violation :=
  if members.isEmpty then []
  else
    match Entries.value? ifKey members with
    | none => [.missingField flag "targeting.if"]
    | some (.arr items) => chainViolations flag variants items
    | some other => [.wrongKind flag "targeting.if" .array other.kind]

end FeatureFlags.Validation
