import FeatureFlags.Reopen
import FeatureFlags.Store.Payload
import FeatureFlags.Validation.Report

/-!
# Events

What the library reports of its own work.  Each operation has a list of the
events that it gives rise to, in their order; the operations themselves stay
plain functions.
-/

namespace FeatureFlags

inductive Level
  | trace
  | debug
  | warn
  deriving DecidableEq

def Level.name : Level → String
  | trace => "TRACE"
  | debug => "DEBUG"
  | warn => "WARN"

inductive Event
  | ruleWritten (index : Nat) (rule : Rule)
  | flagCompiled (draft : Draft) (variants : Nat)
  | negationUnsupported (condition : Json)
  | noRules (placeholder : String)
  | flagReopened (draft : Draft)
  | documentValidated (violations : Nat)
  | draftValidated (key : String) (violations : Nat)
  deriving DecidableEq

namespace Event

def level : Event → Level
  | ruleWritten .. => .trace
  | flagCompiled .. => .debug
  | negationUnsupported .. => .warn
  | noRules .. => .trace
  | flagReopened .. => .debug
  | documentValidated .. => .debug
  | draftValidated .. => .debug

def message : Event → String
  | ruleWritten .. => "serializing rule"
  | flagCompiled .. => "compiled flag"
  | negationUnsupported .. => "unsupported negated condition, using default"
  | noRules .. => "no rules found"
  | flagReopened .. => "decompiled flag"
  | documentValidated .. => "validated document"
  | draftValidated .. => "validated draft"

def truth (value : Bool) : String := if value then "true" else "false"

def fields : Event → Entries String
  | ruleWritten index rule => [
      ("rule", Nat.repr index),
      ("operator", rule.condition.operator.name),
      ("variant", rule.target)]
  | flagCompiled draft variants => [
      ("flag", draft.key),
      ("variants", Nat.repr variants),
      ("rules", Nat.repr (if draft.hasTargeting then draft.rules.length else 0)),
      ("fallback", truth (draft.hasTargeting && draft.hasDefaultRule))]
  | negationUnsupported condition => [("condition", condition.compact)]
  | noRules placeholder => [("placeholder", placeholder)]
  | flagReopened draft => [
      ("flag", draft.key),
      ("flag_type", draft.type.name),
      ("variants", Nat.repr draft.variants.length),
      ("rules", Nat.repr draft.rules.length),
      ("has_targeting", truth draft.hasTargeting)]
  | documentValidated violations => [("violations", Nat.repr violations)]
  | draftValidated key violations =>
    [("flag", key), ("violations", Nat.repr violations)]

end Event

def ruleEvents : Nat → List Rule → List Event
  | _, [] => []
  | index, rule :: rules => .ruleWritten index rule :: ruleEvents (index + 1) rules

/-- A draft whose variants do not compile gives rise to no event. -/
def Draft.compileEvents (draft : Draft) : List Event :=
  match draft.toFlag with
  | .error _ => []
  | .ok flag =>
    (if draft.hasTargeting then ruleEvents 0 draft.rules else []) ++
      [.flagCompiled draft flag.variants.size]

def conditionEvents (tree : Json) : List Event :=
  match Logic.recover tree with
  | .unsupportedNegation => [.negationUnsupported tree]
  | _ => []

def Flag.placeholderEvents (flag : Flag) : List Event :=
  match flag.chainSplit.pairs with
  | [] => [.noRules flag.placeholderTarget]
  | _ => []

def Flag.reopenEvents (flag : Flag) (key : String) : List Event :=
  flag.chainSplit.pairs.flatMap (fun pair => conditionEvents pair.1) ++
    flag.placeholderEvents ++ [.flagReopened (flag.toDraft key)]

def validationEvents (document : Json) : List Event :=
  [.documentValidated (Validation.violations document).length]

def Draft.validationEvents (draft : Draft) : List Event :=
  draft.compileEvents ++
    match draft.compile with
    | .error _ => []
    | .ok document =>
      [.draftValidated draft.key
        (Validation.draftViolations draft document).length]

end FeatureFlags
