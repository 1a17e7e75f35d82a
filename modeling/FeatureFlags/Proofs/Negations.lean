import FeatureFlags.Proofs.Places

/-!
# Negated conditions

A negation has what it negates for its content, or a list of just that.  The
check of a condition looks through both forms, however deep they go.  Main
statement: negations of a condition change neither what is found in it nor what
is found in a document that has it in a rule.
-/

namespace FeatureFlags

namespace Logic

inductive NegationForm
  | plain
  | listed

def NegationForm.negate : NegationForm → Json → Json
  | plain, inner => negation inner
  | listed, inner => negation (.arr [inner])

/-- The value under a negation of each form, the first one outermost. -/
def negations (forms : List NegationForm) (inner : Json) : Json :=
  forms.foldr NegationForm.negate inner

theorem negate_ne_list (form : NegationForm) (inner item : Json) :
    form.negate inner ≠ .arr [item] := by
  cases form <;> simp [NegationForm.negate, negation, single]

theorem negations_ne_list {inner : Json} (h : ∀ item, inner ≠ .arr [item])
    (forms : List NegationForm) (item : Json) :
    negations forms inner ≠ .arr [item] := by
  cases forms with
  | nil => exact h item
  | cons form forms => exact negate_ne_list form (negations forms inner) item

end Logic

open Logic

namespace Validation

section Negations

variable {flag : String} {rule : Nat} {inner : Json}

theorem conditionViolations_negate (form : NegationForm)
    (h : ∀ item, inner ≠ .arr [item]) :
    conditionViolations flag rule (form.negate inner) =
      conditionViolations flag rule inner := by
  cases form with
  | plain =>
      rw [NegationForm.negate, conditionViolations_negation, negated_eq_self h]
  | listed => exact conditionViolations_negation flag rule (.arr [inner])

theorem conditionViolations_negations (forms : List NegationForm)
    (h : ∀ item, inner ≠ .arr [item]) :
    conditionViolations flag rule (negations forms inner) =
      conditionViolations flag rule inner := by
  induction forms with
  | nil => rfl
  | cons form forms ih =>
      -- under a negation there is a negation or the value, never a list of one
      have outermost : conditionViolations flag rule
          (negations (form :: forms) inner) =
            conditionViolations flag rule (negations forms inner) :=
        conditionViolations_negate form (negations_ne_list h forms)
      rw [outermost, ih]

end Negations

/-- A document but for one condition, that of a rule of one of its flags. -/
structure Surroundings where
  members : Entries Json
  flags : Entries Json
  key : String
  fields : Entries Json
  targeting : Entries Json
  before : List (Json × Json)
  target : Json
  after : List (Json × Json)
  fallback : Option Json

namespace Surroundings

variable (around : Surroundings)

def chainWith (condition : Json) : Split where
  pairs := around.before ++ (condition, around.target) :: around.after
  fallback := around.fallback

def flagWith (condition : Json) : Json :=
  .obj (around.fields.put "targeting" (.obj
    (around.targeting.put ifKey (.arr (around.chainWith condition).items))))

def documentWith (condition : Json) : Json :=
  .obj (around.members.put "flags" (.obj
    (around.flags.put around.key (around.flagWith condition))))

end Surroundings

section Checks

variable {flag : String} {variants : Option (Entries Json)}
  {condition other : Json}

theorem ruleViolations_congr
    (same : ∀ rule, conditionViolations flag rule condition =
      conditionViolations flag rule other)
    (number : Nat) (before after : List (Json × Json)) (target : Json) :
    ruleViolations flag variants number
        (before ++ (condition, target) :: after) =
      ruleViolations flag variants number
        (before ++ (other, target) :: after) := by
  induction before generalizing number with
  | nil => simp [ruleViolations, same]
  | cons pair before ih => simp [ruleViolations, ih]

theorem chainViolations_items (parts : Split) (paired : parts.pairs ≠ []) :
    chainViolations flag variants parts.items =
      ruleViolations flag variants 1 parts.pairs ++
        fallbackViolations flag variants parts.fallback := by
  have length : lengthViolations flag parts.items = [] := by
    obtain ⟨pairs, fallback⟩ := parts
    cases pairs with
    | nil => exact absurd rfl paired
    | cons pair pairs => rfl
  rw [chainViolations, length, split_of_parts, List.nil_append]

theorem treeViolations_put_items (members : Entries Json) (items : List Json) :
    treeViolations flag variants (members.put ifKey (.arr items)) =
      chainViolations flag variants items := by
  have nonempty : (members.put ifKey (.arr items)).isEmpty = false := by
    simpa using Entries.put_ne_nil ifKey (.arr items) members
  simp [treeViolations, nonempty, Entries.value?_put_self]

theorem flagViolations_put_targeting (key : String)
    (fields members : Entries Json) :
    flagViolations key (.obj (fields.put "targeting" (.obj members))) =
      keyViolations key ++
        (stateViolations key fields ++ variantsViolations key fields ++
          defaultViolations key fields ++
            treeViolations key (usableVariants fields) members) := by
  have others (name : String) (h : "targeting" ≠ name) :
      Entries.value? name (fields.put "targeting" (.obj members)) =
        Entries.value? name fields :=
    Entries.value?_put_of_ne h (.obj members) fields
  have usable : usableVariants (fields.put "targeting" (.obj members)) =
      usableVariants fields := by
    unfold usableVariants
    rw [others "variants" (by decide)]
  have state : stateViolations key (fields.put "targeting" (.obj members)) =
      stateViolations key fields := by
    unfold stateViolations
    rw [others "state" (by decide)]
  have variants : variantsViolations key
      (fields.put "targeting" (.obj members)) =
        variantsViolations key fields := by
    unfold variantsViolations
    rw [others "variants" (by decide)]
  have default : defaultViolations key
      (fields.put "targeting" (.obj members)) =
        defaultViolations key fields := by
    unfold defaultViolations
    rw [others "defaultVariant" (by decide), usable]
  have targeting : targetingViolations key
      (fields.put "targeting" (.obj members)) =
        treeViolations key (usableVariants fields) members := by
    unfold targetingViolations
    rw [Entries.value?_put_self, usable]
  rw [flagViolations, state, variants, default, targeting]

theorem violations_documentWith_congr (around : Surroundings)
    (same : ∀ rule, conditionViolations around.key rule condition =
      conditionViolations around.key rule other) :
    violations (around.documentWith condition) =
      violations (around.documentWith other) := by
  have chain : chainViolations around.key (usableVariants around.fields)
      (around.chainWith condition).items =
        chainViolations around.key (usableVariants around.fields)
          (around.chainWith other).items := by
    rw [chainViolations_items _ (by simp [Surroundings.chainWith]),
      chainViolations_items _ (by simp [Surroundings.chainWith])]
    simp only [Surroundings.chainWith, ruleViolations_congr same]
  have flag : flagViolations around.key (around.flagWith condition) =
      flagViolations around.key (around.flagWith other) := by
    simp only [Surroundings.flagWith, flagViolations_put_targeting,
      treeViolations_put_items, chain]
  rw [Surroundings.documentWith, Surroundings.documentWith,
    violations_of_flags (Entries.value?_put_self ..),
    violations_of_flags (Entries.value?_put_self ..)]
  exact Entries.flatMap_put_congr flag around.flags

end Checks

/--
What is found in a condition under negations is what is found in the condition,
in the same order.  So negations of a condition do not show in a document.  A list
of one is left out: a plain negation of it is a listed negation of its item.
-/
theorem negations_transparent (forms : List NegationForm) {condition : Json}
    (h : ∀ item, condition ≠ .arr [item]) :
    (∀ flag rule, conditionViolations flag rule (negations forms condition) =
      conditionViolations flag rule condition) ∧
    ∀ around : Surroundings,
      violations (around.documentWith (negations forms condition)) =
        violations (around.documentWith condition) := by
  have same (flag : String) (rule : Nat) :=
    @conditionViolations_negations flag rule condition forms h
  exact ⟨same, fun around => violations_documentWith_congr around
    (same around.key)⟩

example :
    conditionViolations "f" 1 (negations [.plain] (.arr [call "==" []])) = [] ∧
      conditionViolations "f" 1 (.arr [call "==" []]) =
        [.malformedCondition "f" 1] := by
  decide +kernel

def mixedForms : List NegationForm := [.plain, .listed, .listed, .plain]

def brokenComparison : Json :=
  call semVerKey [reference "", .str "=>", .obj [("var", .null)]]

def brokenSurroundings : Surroundings where
  members := [("$schema", .null), ("flags", .null)]
  flags := [("", .null), ("f", .null), ("g", .null)]
  key := "f"
  fields := [("targeting", .null), ("state", .str "ON"),
    ("variants", .obj [("on", .bool true)])]
  targeting := [("else", .null)]
  before := [(.arr [call "==" []], .str "on")]
  target := .str "gone"
  after := [(.obj [("!", .arr [])], .null)]
  fallback := some (.str "lost")

theorem negations_transparent_mixed :
    ((∀ item, brokenComparison ≠ .arr [item]) ∧
      conditionViolations "f" 7 (negations mixedForms brokenComparison) =
        [.invalidReference "f" 7, .invalidReference "f" 7,
          .unsupportedComparator "f" 7 "=>"] ∧
      violations (brokenSurroundings.documentWith
          (negations mixedForms brokenComparison)) =
        [.emptyFlagKey, .flagNotObject "", .invalidState "f" "ON",
          .missingField "f" "defaultVariant", .malformedCondition "f" 1,
          .invalidReference "f" 2, .invalidReference "f" 2,
          .unsupportedComparator "f" 2 "=>", .unknownTarget "f" 2 "gone",
          .malformedCondition "f" 3, .targetNotString "f" 3,
          .unknownFallback "f" "lost", .flagNotObject "g"]) ∧
    (∀ item, Json.arr [.null, .null] ≠ .arr [item]) ∧
      conditionViolations "f" 7 (negations mixedForms (.arr [.null, .null])) =
        [.malformedCondition "f" 7] := by
  have unlisted : ∀ item, brokenComparison ≠ .arr [item] := nofun
  have pair : ∀ item, Json.arr [.null, .null] ≠ .arr [item] := by simp
  obtain ⟨found, shown⟩ := negations_transparent mixedForms unlisted
  obtain ⟨foundInPair, -⟩ := negations_transparent mixedForms pair
  refine ⟨⟨unlisted, ?_, ?_⟩, pair, ?_⟩
  · exact (found "f" 7).trans (by decide +kernel)
  · exact (shown brokenSurroundings).trans (by decide +kernel)
  · exact (foundInPair "f" 7).trans (by decide +kernel)

end Validation

end FeatureFlags
