import FeatureFlags.Json.Basic

/-!
# Violations

What can be wrong with a document's structure, and the wording shown to a user.
-/

namespace FeatureFlags

inductive Violation
  | rootNotObject
  | missingFlags
  | flagsNotObject
  | emptyFlagKey
  | flagNotObject (flag : String)
  | missingField (flag field : String)
  | invalidState (flag found : String)
  | wrongKind (flag field : String) (expected found : Json.Kind)
  | noVariants (flag : String)
  | emptyVariantName (flag : String)
  | mixedKinds (flag variant : String) (expected found : Json.Kind)
  | duplicateVariant (flag variant : String)
  | unknownDefault (flag variant : String)
  | emptyChain (flag : String)
  | fallbackOnly (flag : String)
  | malformedCondition (flag : String) (rule : Nat)
  | operandsNotArray (flag : String) (rule : Nat) (operator : String)
  | invalidReference (flag : String) (rule : Nat)
  | unsupportedComparator (flag : String) (rule : Nat) (comparator : String)
  | targetNotString (flag : String) (rule : Nat)
  | unknownTarget (flag : String) (rule : Nat) (variant : String)
  | fallbackNotString (flag : String)
  | unknownFallback (flag variant : String)
  deriving DecidableEq

namespace Violation

def withArticle (kind : Json.Kind) : String :=
  match kind with
  | .array | .object => "an " ++ kind.name
  | kind => "a " ++ kind.name

def ofFlag (flag : String) : String := "Flag '" ++ flag ++ "'"

def ofRule (flag : String) (rule : Nat) : String :=
  ofFlag flag ++ ": rule " ++ Nat.repr rule

def message : Violation → String
  | rootNotObject => "Document must be a JSON object"
  | missingFlags => "Document is missing the required 'flags' object"
  | flagsNotObject =>
    "'flags' must be an object mapping flag keys to flag definitions"
  | emptyFlagKey => "Flag keys must not be empty"
  | flagNotObject flag => ofFlag flag ++ " must be an object"
  | missingField flag field =>
    ofFlag flag ++ " is missing required field '" ++ field ++ "'"
  | invalidState flag found =>
    ofFlag flag ++ " has invalid state '" ++ found ++
      "', expected \"ENABLED\" or \"DISABLED\""
  | wrongKind flag field expected found =>
    ofFlag flag ++ ": field '" ++ field ++ "' must be " ++
      withArticle expected ++ ", found " ++ found.name
  | noVariants flag => ofFlag flag ++ " must define at least one variant"
  | emptyVariantName flag => ofFlag flag ++ " has a variant with an empty name"
  | mixedKinds flag variant expected found =>
    ofFlag flag ++ ": variant '" ++ variant ++ "' is a " ++ found.name ++
      ", but the first variant makes this a " ++ expected.name ++ " flag"
  | duplicateVariant flag variant =>
    ofFlag flag ++ ": variant name '" ++ variant ++ "' is used more than once"
  | unknownDefault flag variant =>
    ofFlag flag ++ ": defaultVariant '" ++ variant ++
      "' does not match any variant"
  | emptyChain flag => ofFlag flag ++ ": targeting 'if' must not be empty"
  | fallbackOnly flag =>
    ofFlag flag ++
      ": targeting 'if' contains no condition, only a fallback variant"
  | malformedCondition flag rule =>
    ofRule flag rule ++
      " condition must be an object with exactly one operator"
  | operandsNotArray flag rule operator =>
    ofRule flag rule ++ " operator '" ++ operator ++
      "' must take an array of operands"
  | invalidReference flag rule =>
    ofRule flag rule ++
      " has a 'var' reference that is not a non-empty string"
  | unsupportedComparator flag rule comparator =>
    ofRule flag rule ++ " uses unsupported sem_ver comparator '" ++
      comparator ++ "'"
  | targetNotString flag rule =>
    ofRule flag rule ++ " target variant must be a string"
  | unknownTarget flag rule variant =>
    ofRule flag rule ++ " targets unknown variant '" ++ variant ++ "'"
  | fallbackNotString flag =>
    ofFlag flag ++ ": fallback variant must be a string"
  | unknownFallback flag variant =>
    ofFlag flag ++ ": fallback variant '" ++ variant ++
      "' does not match any variant"

end Violation

end FeatureFlags
