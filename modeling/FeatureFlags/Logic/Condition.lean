import FeatureFlags.Draft.Condition
import FeatureFlags.Logic.Tree

/-!
# Conditions as logic trees

`Condition.toLogic` writes a condition of the form as a logic tree.  Reading one
back is best effort: `recover` says what became of a tree, and a tree outside
the supported shapes gives the blank condition.
-/

namespace FeatureFlags.Logic

/-- The first operand is always an attribute, even when its path is empty. -/
def ofCondition (condition : Condition) : Json :=
  let subject := reference condition.name
  match condition.operator with
  | .semVer =>
    call semVerKey [subject, .str condition.comparator, .str condition.value]
  | .inList => membership subject (.ofTexts condition.listValues)
  | .notInList => negation (membership subject (.ofTexts condition.listValues))
  | .inString => membership subject (.str condition.value)
  | .notInString => negation (membership subject (.str condition.value))
  | operator => call operator.name [subject, .str condition.value]

inductive Recovered
  | condition (condition : Condition)
  | blank
  | unsupportedNegation
  deriving DecidableEq

def subjectPath (operands : Json) : String :=
  ((operands.item? 0).bind referencePath?).getD ""

def operandAt (index : Nat) (operands : Json) : String :=
  ((operands.item? index).map operandText).getD ""

def recoverMembership (list text : Operator) (operands : Json) : Condition :=
  match operands.item? 1 with
  | some (.arr items) =>
    { name := subjectPath operands
      operator := list
      value := Text.join ", " (items.map operandText) }
  | _ =>
    { name := subjectPath operands
      operator := text
      value := operandAt 1 operands }

def recoverNegation (inner : Json) : Recovered :=
  match firstMember? inner with
  | none => .unsupportedNegation
  | some (key, operands) =>
    if key = inKey then
      .condition (recoverMembership .notInList .notInString operands)
    else .unsupportedNegation

def recoverCall (key : String) (operands : Json) : Condition :=
  if key = semVerKey then
    .version (subjectPath operands)
      (((operands.item? 1).map operandText).getD defaultComparator)
      (operandAt 2 operands)
  else if key = inKey then recoverMembership .inList .inString operands
  else
    { name := subjectPath operands
      operator := .ofKey key
      value := operandAt 1 operands }

def recover (tree : Json) : Recovered :=
  match firstMember? tree with
  | none => .blank
  | some (key, operands) =>
    if key = notKey then recoverNegation operands
    else .condition (recoverCall key operands)

def Recovered.toCondition : Recovered → Condition
  | condition recovered => recovered
  | blank => .blank
  | unsupportedNegation => .blank

/-- The condition that a tree stands for, as far as the form can express it. -/
def toCondition (tree : Json) : Condition := (recover tree).toCondition

end FeatureFlags.Logic
