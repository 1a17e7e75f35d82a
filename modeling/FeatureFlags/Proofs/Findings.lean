import FeatureFlags.Proofs.Chains
import FeatureFlags.Proofs.Tables
import FeatureFlags.Validation.Report

/-!
# What is found wrong with a draft

`Draft.findings` lists the violations of a draft that compiles, read off the
draft's own fields: no document is written and no chain is taken apart.  Main
statement: the report on such a draft shows these findings, in this order.
-/

namespace FeatureFlags

def foundIf (condition : Prop) [Decidable condition] (violation : Violation) :
    List Violation :=
  if condition then [violation] else []

@[simp] theorem foundIf_eq_nil_iff {condition : Prop} [Decidable condition]
    {violation : Violation} :
    foundIf condition violation = [] ↔ ¬ condition := by
  unfold foundIf
  split <;> simp_all

/-- The names used more than once, in the order of their second uses. -/
def secondUses (names : List String) : List String :=
  (names.zipIdx.filter fun use => (names.take use.2).count use.1 = 1).map
    Prod.fst

def Condition.writtenComparator? (condition : Condition) : Option String :=
  match condition.operator with
  | .semVer => some condition.comparator
  | .other key => if key = "sem_ver" then some condition.value else none
  | _ => none

def Condition.findings (condition : Condition) (key : String) (rule : Nat) :
    List Violation :=
  if condition.operator = .other "!" then [.malformedCondition key rule]
  else
    foundIf (condition.name = "") (.invalidReference key rule) ++
      match condition.writtenComparator? with
      | some comparator =>
        foundIf (comparator ∉ comparators)
          (.unsupportedComparator key rule comparator)
      | none => []

def Rule.findings (rule : Rule) (key : String) (variants : List String)
    (number : Nat) : List Violation :=
  rule.condition.findings key number ++
    foundIf (rule.target ∉ variants) (.unknownTarget key number rule.target)

namespace Draft

def variantFindings (draft : Draft) (variants : Entries Json) :
    List Violation :=
  match variants.head? with
  | none => [.noVariants draft.key]
  | some first =>
    variants.flatMap fun variant =>
      foundIf (variant.1 = "") (.emptyVariantName draft.key) ++
        foundIf (variant.2.kind ≠ first.2.kind)
          (.mixedKinds draft.key variant.1 first.2.kind variant.2.kind)

def targetingFindings (draft : Draft) (variants : List String) :
    List Violation :=
  foundIf (draft.rules = [] ∧ draft.hasDefaultRule = false)
      (.emptyChain draft.key) ++
    foundIf (draft.rules = [] ∧ draft.hasDefaultRule = true)
      (.fallbackOnly draft.key) ++
    (draft.rules.zipIdx 1).flatMap
      (fun numbered => numbered.1.findings draft.key variants numbered.2) ++
    foundIf (draft.hasDefaultRule = true ∧ draft.defaultRule ∉ variants)
      (.unknownFallback draft.key draft.defaultRule)

/-- All that is wrong with the draft, given the variants it compiles to. -/
def findings (draft : Draft) (variants : Entries Json) : List Violation :=
  (secondUses (draft.variants.map Variant.name)).map
      (.duplicateVariant draft.key) ++
    foundIf (draft.key = "") .emptyFlagKey ++
    draft.variantFindings variants ++
    foundIf (draft.defaultVariant ∉ variants.names)
      (.unknownDefault draft.key draft.defaultVariant) ++
    if draft.hasTargeting then draft.targetingFindings variants.names else []

/-! ## Drafts that compile -/

theorem toFlag_eq_ok {draft : Draft} {flag : Flag}
    (h : draft.toFlag = .ok flag) :
    ∃ values, compileVariants draft.type draft.variants = .ok values ∧
      flag = ⟨.ofBool draft.enabled, some draft.defaultVariant,
        .ofEntries values, draft.targeting?⟩ := by
  unfold Draft.toFlag at h
  cases hvalues : compileVariants draft.type draft.variants with
  | error error => simp [hvalues, Except.map] at h
  | ok values =>
      rw [hvalues] at h
      exact ⟨values, rfl, (Except.ok.inj h).symm⟩

end Draft

theorem Report.valid_ofViolations_iff {violations : List Violation} :
    (Report.ofViolations violations).valid = true ↔ violations = [] :=
  List.isEmpty_iff

namespace Validation

open Logic

theorem count_concat (before : List String) (name other : String) :
    (before ++ [name]).count other =
      before.count other + if name = other then 1 else 0 := by
  simp [List.count_append, List.count_singleton]

theorem repeatedNames_eq {before seen reported : List String}
    (hseen : ∀ name, name ∈ seen ↔ 0 < before.count name)
    (hreported : ∀ name, name ∈ reported ↔ 1 < before.count name)
    (names : List String) :
    repeatedNames seen reported names =
      ((names.zipIdx before.length).filter fun use =>
        ((before ++ names).take use.2).count use.1 = 1).map Prod.fst := by
  -- invariant: `seen` holds the names of `before`, `reported` the repeated ones
  induction names generalizing before seen reported with
  | nil => rfl
  | cons name names ih =>
      have step {seen' reported' : List String}
          (hseen' : ∀ other, other ∈ seen' ↔ 0 < (before ++ [name]).count other)
          (hreported' : ∀ other,
            other ∈ reported' ↔ 1 < (before ++ [name]).count other) :
          repeatedNames seen' reported' names =
            ((names.zipIdx (before.length + 1)).filter fun use =>
              ((before ++ name :: names).take use.2).count use.1 = 1).map
                Prod.fst := by
        simpa using ih hseen' hreported'
      simp only [repeatedNames, List.zipIdx_cons, List.filter_cons,
        List.take_left, decide_eq_true_eq]
      split
      · rename_i known
        have once := (hseen name).mp known
        split
        · rename_i twice
          have := (hreported name).mp twice
          rw [if_neg (by omega)]
          apply step <;> intro other <;> grind [count_concat]
        · rename_i fresh
          have := mt (hreported name).mpr fresh
          rw [if_pos (by omega), List.map_cons]
          congr 1
          apply step <;> intro other <;> grind [count_concat]
      · rename_i fresh
        have := mt (hseen name).mpr fresh
        rw [if_neg (by omega)]
        apply step <;> intro other <;> grind [count_concat]

theorem repeatedNames_eq_secondUses (names : List String) :
    repeatedNames [] [] names = secondUses names := by
  have none : ∀ name : String, name ∈ ([] : List String) ↔
      0 < ([] : List String).count name := by simp
  have twice : ∀ name : String, name ∈ ([] : List String) ↔
      1 < ([] : List String).count name := by simp
  exact repeatedNames_eq none twice names

theorem repeatedNames_of_nodup {seen reported names : List String}
    (h : names.Nodup) (fresh : ∀ name ∈ names, name ∉ seen) :
    repeatedNames seen reported names = [] := by
  induction names generalizing seen with
  | nil => rfl
  | cons name names ih =>
      rw [repeatedNames, if_neg (fresh name (by simp))]
      apply ih (List.nodup_cons.mp h).2
      intro other hother
      rw [List.mem_cons, not_or]
      refine ⟨?_, fresh other (List.mem_cons_of_mem _ hother)⟩
      rintro rfl
      exact (List.nodup_cons.mp h).1 hother

/-! ## Conditions that are written -/

theorem operandViolations_reference (flag : String) (rule : Nat) (path : String)
    {operands : List Json}
    (h : ∀ operand ∈ operands, operand.member? varKey = none) :
    operandViolations flag rule (reference path :: operands) =
      foundIf (path = "") (.invalidReference flag rule) := by
  have others : operandViolations flag rule operands = [] := by
    apply List.filterMap_eq_nil_iff.mpr
    intro operand hoperand
    simp [isValidOperand, h operand hoperand]
  unfold operandViolations at others ⊢
  rw [List.filterMap_cons, others]
  by_cases empty : path = "" <;>
    simp [isValidOperand, reference, single, Json.member?, Entries.value?,
      foundIf, empty]

theorem conditionViolations_call (flag : String) (rule : Nat) {key : String}
    (h : key ≠ notKey) (operands : List Json) :
    conditionViolations flag rule (call key operands) =
      operandViolations flag rule operands ++
        comparatorViolations flag rule key operands := by
  rw [call, single, conditionViolations, if_neg h]

theorem conditionViolations_negation_call (flag : String) (rule : Nat)
    (key : String) (operands : List Json) :
    conditionViolations flag rule (negation (call key operands)) =
      conditionViolations flag rule (call key operands) := by
  rw [conditionViolations_negation, negated_eq_self]
  simp [call, single]

theorem comparatorViolations_semVer (flag : String) (rule : Nat)
    (subject : Json) (comparator : String) (operands : List Json) :
    comparatorViolations flag rule semVerKey
        (subject :: .str comparator :: operands) =
      foundIf (comparator ∉ comparators)
        (.unsupportedComparator flag rule comparator) := by
  simp [comparatorViolations, comparatorOf, foundIf]

theorem comparatorViolations_of_ne (flag : String) (rule : Nat) {key : String}
    (h : key ≠ semVerKey) (operands : List Json) :
    comparatorViolations flag rule key operands = [] := by
  simp [comparatorViolations, h]

theorem conditionViolations_call_reference (flag : String) (rule : Nat)
    (key : String) (negates : key ≠ notKey) (compares : key ≠ semVerKey)
    (path : String) {operand : Json} (h : operand.member? varKey = none) :
    conditionViolations flag rule (call key [reference path, operand]) =
      foundIf (path = "") (.invalidReference flag rule) := by
  rw [conditionViolations_call flag rule negates,
    operandViolations_reference flag rule path (by simpa using h),
    comparatorViolations_of_ne flag rule compares, List.append_nil]

theorem conditionViolations_negated_membership (flag : String) (rule : Nat)
    (path : String) {haystack : Json} (h : haystack.member? varKey = none) :
    conditionViolations flag rule
        (negation (membership (reference path) haystack)) =
      foundIf (path = "") (.invalidReference flag rule) := by
  rw [membership, conditionViolations_negation_call]
  exact conditionViolations_call_reference flag rule inKey (by decide)
    (by decide) path h

theorem conditionViolations_call_notKey (flag : String) (rule : Nat)
    (first second : Json) :
    conditionViolations flag rule (call notKey [first, second]) =
      [.malformedCondition flag rule] := by
  simp [call, single, conditionViolations, negated]

theorem conditionViolations_semVer (flag : String) (rule : Nat)
    (path comparator : String) (operands : List Json)
    (h : ∀ operand ∈ operands, operand.member? varKey = none) :
    conditionViolations flag rule
        (call semVerKey (reference path :: .str comparator :: operands)) =
      foundIf (path = "") (.invalidReference flag rule) ++
        foundIf (comparator ∉ comparators)
          (.unsupportedComparator flag rule comparator) := by
  have free : ∀ operand ∈ Json.str comparator :: operands,
      operand.member? varKey = none := by
    intro operand hoperand
    rcases List.mem_cons.mp hoperand with rfl | hoperand
    · rfl
    · exact h operand hoperand
  rw [conditionViolations_call flag rule (by decide),
    operandViolations_reference flag rule path free,
    comparatorViolations_semVer]

theorem findings_of_no_comparator {condition : Condition} (flag : String)
    (rule : Nat) (negates : condition.operator ≠ .other "!")
    (h : condition.writtenComparator? = none) :
    condition.findings flag rule =
      foundIf (condition.name = "") (.invalidReference flag rule) := by
  simp [Condition.findings, negates, h]

theorem findings_of_comparator {condition : Condition} {comparator : String}
    (flag : String) (rule : Nat) (negates : condition.operator ≠ .other "!")
    (h : condition.writtenComparator? = some comparator) :
    condition.findings flag rule =
      foundIf (condition.name = "") (.invalidReference flag rule) ++
        foundIf (comparator ∉ comparators)
          (.unsupportedComparator flag rule comparator) := by
  simp [Condition.findings, negates, h]

theorem conditionViolations_ofCondition (flag : String) (rule : Nat)
    (condition : Condition) :
    conditionViolations flag rule (ofCondition condition) =
      condition.findings flag rule := by
  obtain ⟨name, operator, comparator, value⟩ := condition
  cases operator with
  | semVer =>
      rw [findings_of_comparator flag rule (by simp) rfl]
      exact conditionViolations_semVer flag rule name comparator [.str value]
        (by simp [Json.member?])
  | endsWith | startsWith | equals | inList | inString =>
      rw [findings_of_no_comparator flag rule (by simp) rfl]
      apply conditionViolations_call_reference
      · simp [Operator.name, inKey, notKey]
      · simp [Operator.name, inKey, semVerKey]
      · rfl
  | notInList | notInString =>
      rw [findings_of_no_comparator flag rule (by simp) rfl]
      exact conditionViolations_negated_membership flag rule name rfl
  | other key =>
      by_cases negates : key = notKey
      · subst negates
        exact conditionViolations_call_notKey flag rule _ _
      · have plain : Operator.other key ≠ .other "!" := fun same =>
          negates (Operator.other.inj same)
        -- written as a comparison, such an operator has its value as comparator
        by_cases compares : key = semVerKey
        · subst compares
          rw [findings_of_comparator flag rule plain rfl]
          exact conditionViolations_semVer flag rule name value [] (by simp)
        · have none : Condition.writtenComparator?
              ⟨name, .other key, comparator, value⟩ = none := if_neg compares
          rw [findings_of_no_comparator flag rule plain none]
          exact conditionViolations_call_reference flag rule key negates
            compares name rfl

theorem targetViolations_str (flag : String) (rule : Nat)
    (variants : Entries Json) (target : String) :
    targetViolations flag rule (some variants) (.str target) =
      foundIf (target ∉ variants.names) (.unknownTarget flag rule target) := by
  simp [targetViolations, isUnknown, foundIf]

theorem ruleViolations_rules (flag : String) (variants : Entries Json)
    (number : Nat) (rules : List Rule) :
    ruleViolations flag (some variants) number
        (rules.map fun rule =>
          (ofCondition rule.condition, Json.str rule.target)) =
      (rules.zipIdx number).flatMap fun numbered =>
        numbered.1.findings flag variants.names numbered.2 := by
  induction rules generalizing number with
  | nil => rfl
  | cons rule rules ih =>
      rw [List.map_cons, ruleViolations, conditionViolations_ofCondition,
        targetViolations_str, ih, List.zipIdx_cons, List.flatMap_cons]
      rfl

theorem fallbackViolations_str (flag : String) (variants : Entries Json)
    (fallback : String) :
    fallbackViolations flag (some variants) (some (.str fallback)) =
      foundIf (fallback ∉ variants.names)
        (.unknownFallback flag fallback) := by
  simp [fallbackViolations, isUnknown, foundIf]

theorem lengthViolations_items (flag : String) (branches : List Branch)
    (fallback : Option String) :
    lengthViolations flag (Chain.items ⟨branches, fallback⟩) =
      foundIf (branches = [] ∧ fallback = none) (.emptyChain flag) ++
        foundIf (branches = [] ∧ fallback ≠ none) (.fallbackOnly flag) := by
  cases branches with
  | nil => cases fallback <;> rfl
  | cons branch branches => simp [lengthViolations, foundIf]

theorem pairs_split_chain (draft : Draft) :
    (split draft.chain.items).pairs =
      draft.rules.map fun rule =>
        (ofCondition rule.condition, Json.str rule.target) := by
  rw [split_items]
  simp [Draft.chain, Rule.toBranch]

theorem fallback_split_chain (draft : Draft) :
    (split draft.chain.items).fallback =
      if draft.hasDefaultRule then some (.str draft.defaultRule) else none := by
  rw [split_items]
  cases h : draft.hasDefaultRule <;> simp [Draft.chain, h]

theorem lengthViolations_chain (draft : Draft) :
    lengthViolations draft.key draft.chain.items =
      foundIf (draft.rules = [] ∧ draft.hasDefaultRule = false)
          (.emptyChain draft.key) ++
        foundIf (draft.rules = [] ∧ draft.hasDefaultRule = true)
          (.fallbackOnly draft.key) := by
  rw [Draft.chain, lengthViolations_items]
  cases h : draft.hasDefaultRule <;> simp

theorem chainViolations_chain (draft : Draft) (variants : Entries Json) :
    chainViolations draft.key (some variants) draft.chain.items =
      draft.targetingFindings variants.names := by
  have fallback : fallbackViolations draft.key (some variants)
      (split draft.chain.items).fallback =
        foundIf (draft.hasDefaultRule = true ∧
            draft.defaultRule ∉ variants.names)
          (.unknownFallback draft.key draft.defaultRule) := by
    rw [fallback_split_chain]
    cases draft.hasDefaultRule with
    | false => rfl
    | true => simp [fallbackViolations_str]
  rw [chainViolations, fallback, lengthViolations_chain, pairs_split_chain,
    ruleViolations_rules, Draft.targetingFindings]

section Fields

variable (key name : String) (state : State) (variants : Table Json)
  (targeting : Option Json)

def fields : Entries Json :=
  ("state", state.toJson) :: ("defaultVariant", .str name) ::
    ("variants", .obj variants.entries) ::
      Flag.optionalMember "targeting" targeting

theorem toJson_eq_fields :
    Flag.toJson ⟨state, some name, variants, targeting⟩ =
      .obj (fields name state variants targeting) := rfl

theorem usableVariants_fields :
    usableVariants (fields name state variants targeting) =
      some variants.entries := rfl

theorem stateViolations_fields :
    stateViolations key (fields name state variants targeting) = [] := by
  cases state <;> rfl

theorem defaultViolations_fields :
    defaultViolations key (fields name state variants targeting) =
      foundIf (name ∉ variants.entries.names) (.unknownDefault key name) := by
  have written : Entries.value? "defaultVariant"
      (fields name state variants targeting) = some (.str name) := rfl
  rw [defaultViolations, written, usableVariants_fields]
  simp [isUnknown, foundIf]

theorem targetingViolations_fields_none :
    targetingViolations key (fields name state variants none) = [] := rfl

theorem targetingViolations_fields_chain (chain : Chain) :
    targetingViolations key (fields name state variants (some chain.toJson)) =
      chainViolations key (some variants.entries) chain.items := rfl

end Fields

theorem variantsViolations_fields (draft : Draft) (state : State)
    (name : String) (variants : Table Json) (targeting : Option Json) :
    variantsViolations draft.key (fields name state variants targeting) =
      draft.variantFindings variants.entries := by
  have written : Entries.value? "variants"
      (fields name state variants targeting) = some (.obj variants.entries) := rfl
  rw [variantsViolations, written, Draft.variantFindings]
  cases variants.entries with
  | nil => rfl
  | cons first rest =>
      simp only [List.head?_cons]
      congr 1
      funext variant
      simp [variantViolations, foundIf]

theorem violations_single (key : String) (flag : Flag) :
    violations (Document.single key flag).toJson =
      flagViolations key flag.toJson := by
  simp [violations, Document.single, Document.toJson, SortedTable.single,
    Entries.mapValues, Entries.value?]

theorem draftViolations_eq_findings {draft : Draft} {flag : Flag}
    (h : draft.toFlag = .ok flag) :
    draftViolations draft (.single draft.key flag) =
      draft.findings flag.variants.entries := by
  obtain ⟨values, -, rfl⟩ := Draft.toFlag_eq_ok h
  have targeting : targetingViolations draft.key
      (fields draft.defaultVariant (.ofBool draft.enabled)
        (.ofEntries values) draft.targeting?) =
        if draft.hasTargeting then
          draft.targetingFindings (Entries.names (Table.ofEntries values).entries)
        else [] := by
    rw [Draft.targeting?]
    split
    · rw [targetingViolations_fields_chain, chainViolations_chain]
    · exact targetingViolations_fields_none ..
  rw [draftViolations, violations_single, toJson_eq_fields, flagViolations]
  simp only [stateViolations_fields, variantsViolations_fields,
    defaultViolations_fields, targeting, duplicateViolations,
    repeatedNames_eq_secondUses, List.nil_append]
  simp [Draft.findings, keyViolations, foundIf]

end Validation

open Validation

theorem Draft.validate_of_toFlag {draft : Draft} {flag : Flag}
    (h : draft.toFlag = .ok flag) :
    draft.validate = .ofViolations (draft.findings flag.variants.entries) := by
  rw [Draft.validate, Draft.compile, h, Except.map]
  exact congrArg Report.ofViolations (draftViolations_eq_findings h)

def crowdedDraft : Draft where
  key := ""
  description := none
  enabled := true
  type := .string
  variants :=
    [⟨"on", .bool true⟩, ⟨"off", .text "no"⟩, ⟨"on", .null⟩, ⟨"", .text ""⟩,
      ⟨"off", .bool false⟩, ⟨"on", .bool true⟩]
  defaultVariant := "maybe"
  hasTargeting := true
  rules :=
    [⟨{ name := "os", operator := .other "!", value := "x" }, "on"⟩,
      ⟨.version "" "=>" "1.0", "gone"⟩,
      ⟨{ name := "app", operator := .other "sem_ver", value := "1.0" }, "off"⟩,
      ⟨{ operator := .notInList, value := "a, b" }, "on"⟩]
  hasDefaultRule := true
  defaultRule := "gone"

end FeatureFlags
