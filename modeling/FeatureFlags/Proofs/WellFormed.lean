import FeatureFlags.Proofs.Chains
import FeatureFlags.Validation.Report

/-!
# Well-formed documents

`WellFormed` is the grammar of documents, written as predicates on trees: no
check is run and no violation is made.  Main statement: validation accepts the
well-formed documents and no others.  In particular a reference that is not
checked, because the variants cannot be used, never lets a document through.
-/

namespace FeatureFlags

open Logic

def HasNamedReference (operand : Json) : Prop :=
  ∀ path, operand.member? varKey = some path →
    ∃ name, name ≠ "" ∧ path = .str name

def HasComparator (operands : List Json) : Prop :=
  ∃ comparator ∈ comparators, operands[1]? = some (.str comparator)

/-- One operator over operands, under any number of negations. -/
inductive WellFormedCondition : Json → Prop
  | call {operator : String} {operands : List Json}
      (negates : operator ≠ notKey)
      (references : ∀ operand ∈ operands, HasNamedReference operand)
      (compares : operator = semVerKey → HasComparator operands) :
      WellFormedCondition (call operator operands)
  | negation {inner : Json} (h : WellFormedCondition inner) :
      WellFormedCondition (negation inner)
  | negationOfOne {inner : Json} (h : WellFormedCondition inner) :
      WellFormedCondition (negation (.arr [inner]))

def NamesVariant (variants : Entries Json) (item : Json) : Prop :=
  ∃ name ∈ variants.names, item = .str name

structure WellFormedChain (variants : Entries Json) (items : List Json) :
    Prop where
  length : 2 ≤ items.length
  conditions : ∀ i < items.length / 2,
    ∃ item, items[2 * i]? = some item ∧ WellFormedCondition item
  targets : ∀ i < items.length / 2,
    ∃ item, items[2 * i + 1]? = some item ∧ NamesVariant variants item
  fallback : items.length % 2 = 1 →
    ∃ item, items.getLast? = some item ∧ NamesVariant variants item

inductive WellFormedTargeting (variants : Entries Json) : Option Json → Prop
  | absent : WellFormedTargeting variants none
  | null : WellFormedTargeting variants (some .null)
  | empty : WellFormedTargeting variants (some (.obj []))
  | chain {members : Entries Json} {items : List Json}
      (found : Entries.value? ifKey members = some (.arr items))
      (h : WellFormedChain variants items) :
      WellFormedTargeting variants (some (.obj members))

structure WellFormedVariants (variants : Entries Json) : Prop where
  nonempty : variants ≠ []
  named : "" ∉ variants.names
  uniform : ∃ kind, ∀ variant ∈ variants, variant.2.kind = kind

structure WellFormedFields (fields variants : Entries Json) : Prop where
  state : Entries.value? "state" fields = some (.str "ENABLED") ∨
    Entries.value? "state" fields = some (.str "DISABLED")
  given : Entries.value? "variants" fields = some (.obj variants)
  usable : WellFormedVariants variants
  default : ∃ name ∈ variants.names,
    Entries.value? "defaultVariant" fields = some (.str name)
  targeting : WellFormedTargeting variants (Entries.value? "targeting" fields)

def WellFormedFlag (flag : Json) : Prop :=
  ∃ fields variants, flag = .obj fields ∧ WellFormedFields fields variants

def WellFormed (document : Json) : Prop :=
  ∃ members flags, document = .obj members ∧
    Entries.value? "flags" members = some (.obj flags) ∧
    ∀ entry ∈ flags, entry.1 ≠ "" ∧ WellFormedFlag entry.2

namespace Validation

/-! ## Conditions without violations -/

theorem isValidOperand_iff {operand : Json} :
    isValidOperand operand = true ↔ HasNamedReference operand := by
  unfold isValidOperand HasNamedReference
  cases operand.member? varKey with
  | none => simp
  | some path => cases path <;> simp

theorem operandViolations_eq_nil_iff {flag : String} {rule : Nat}
    {operands : List Json} :
    operandViolations flag rule operands = [] ↔
      ∀ operand ∈ operands, HasNamedReference operand := by
  unfold operandViolations
  rw [List.filterMap_eq_nil_iff]
  apply forall₂_congr
  intro operand _
  rw [← isValidOperand_iff]
  simp

theorem comparatorOf_mem_iff {operands : List Json} :
    comparatorOf operands ∈ comparators ↔ HasComparator operands := by
  unfold comparatorOf HasComparator
  split
  · rename_i comparator found
    constructor
    · intro known
      exact ⟨comparator, known, found⟩
    · rintro ⟨other, known, same⟩
      rw [found] at same
      cases same
      exact known
  · rename_i noText
    -- the text that stands for a missing comparator is no comparator
    have empty : "" ∉ comparators := by decide
    constructor
    · intro known
      exact absurd known empty
    · rintro ⟨comparator, -, found⟩
      exact absurd found (noText comparator)

theorem comparatorViolations_eq_nil_iff {flag operator : String} {rule : Nat}
    {operands : List Json} :
    comparatorViolations flag rule operator operands = [] ↔
      (operator = semVerKey → HasComparator operands) := by
  unfold comparatorViolations
  rw [← comparatorOf_mem_iff]
  split
  · rename_i unsupported
    simp [unsupported]
  · rename_i supported
    simpa using supported

theorem negated_of_wellFormed {condition : Json}
    (h : WellFormedCondition condition) : negated condition = condition := by
  cases h <;> rfl

theorem wellFormed_negation_iff {content : Json} :
    WellFormedCondition (negation content) ↔
      WellFormedCondition (negated content) := by
  constructor
  · intro h
    generalize written : negation content = tree at h
    cases h with
    | call negates =>
        simp [negation, call, single, negates.symm] at written
    | negation h =>
        cases written
        rwa [negated_of_wellFormed h]
    | negationOfOne h =>
        cases written
        exact h
  · intro h
    unfold negated at h
    split at h
    · exact .negationOfOne h
    · exact .negation h

theorem wellFormed_call_iff {operator : String} {operands : List Json}
    (negates : operator ≠ notKey) :
    WellFormedCondition (call operator operands) ↔
      (∀ operand ∈ operands, HasNamedReference operand) ∧
        (operator = semVerKey → HasComparator operands) := by
  constructor
  · intro h
    generalize written : call operator operands = tree at h
    cases h with
    | call _ references compares =>
        cases written
        exact ⟨references, compares⟩
    | negation | negationOfOne =>
        simp [negation, call, single, negates] at written
  · rintro ⟨references, compares⟩
    exact .call negates references compares

theorem conditionViolations_eq_nil_iff {flag : String} {rule : Nat}
    {condition : Json} :
    conditionViolations flag rule condition = [] ↔
      WellFormedCondition condition := by
  -- the cases are a negation, a call, an operator without an array, and the rest
  induction condition using conditionViolations.induct with
  | case1 content _ ih =>
      have step := conditionViolations_negation flag rule content
      rw [negation, single] at step
      rw [step, ih]
      exact wellFormed_negation_iff.symm
  | case2 operator negates operands =>
      rw [conditionViolations, if_neg negates, List.append_eq_nil_iff,
        operandViolations_eq_nil_iff, comparatorViolations_eq_nil_iff]
      exact (wellFormed_call_iff negates).symm
  | case3 operator content negates noArray =>
      have violates : conditionViolations flag rule
          (.obj [(operator, content)]) =
            [.operandsNotArray flag rule operator] := by
        rw [conditionViolations, if_neg negates]
        exact noArray
      rw [violates]
      refine iff_of_false (by simp) ?_
      intro h
      cases h with
      | call => exact noArray _ rfl
      | negation | negationOfOne => exact negates rfl
  | case4 condition noOperator =>
      have violates : conditionViolations flag rule condition =
          [.malformedCondition flag rule] := by
        rw [conditionViolations]
        exact noOperator
      rw [violates]
      refine iff_of_false (by simp) ?_
      intro h
      cases h <;> exact noOperator _ _ rfl

section Chains

variable {flag : String} {rule : Nat} {variants : Entries Json}

theorem targetViolations_eq_nil_iff {target : Json} :
    targetViolations flag rule (some variants) target = [] ↔
      NamesVariant variants target := by
  cases target <;> simp [targetViolations, isUnknown, NamesVariant]

theorem fallbackViolations_eq_nil_iff {fallback : Option Json} :
    fallbackViolations flag (some variants) fallback = [] ↔
      ∀ item, fallback = some item → NamesVariant variants item := by
  cases fallback with
  | none => simp [fallbackViolations]
  | some item =>
      cases item <;> simp [fallbackViolations, isUnknown, NamesVariant]

theorem ruleViolations_eq_nil_iff {pairs : List (Json × Json)} :
    ruleViolations flag (some variants) rule pairs = [] ↔
      ∀ pair ∈ pairs,
        WellFormedCondition pair.1 ∧ NamesVariant variants pair.2 := by
  induction pairs generalizing rule with
  | nil => simp [ruleViolations]
  | cons pair pairs ih =>
      rw [ruleViolations, List.append_eq_nil_iff, List.append_eq_nil_iff,
        conditionViolations_eq_nil_iff, targetViolations_eq_nil_iff, ih,
        List.forall_mem_cons]

theorem lengthViolations_eq_nil_iff {items : List Json} :
    lengthViolations flag items = [] ↔ 2 ≤ items.length := by
  match items with
  | [] => simp [lengthViolations]
  | [last] => simp [lengthViolations]
  | condition :: target :: rest => simp [lengthViolations]

theorem forall_mem_pairs_split_iff {P Q : Json → Prop} {items : List Json} :
    (∀ pair ∈ (split items).pairs, P pair.1 ∧ Q pair.2) ↔
      (∀ i < items.length / 2, ∃ item, items[2 * i]? = some item ∧ P item) ∧
        ∀ i < items.length / 2,
          ∃ item, items[2 * i + 1]? = some item ∧ Q item := by
  constructor
  · intro h
    have pair (i : Nat) (hi : i < items.length / 2) :
        ∃ condition target, items[2 * i]? = some condition ∧
          items[2 * i + 1]? = some target ∧ P condition ∧ Q target := by
      have hfirst : 2 * i < items.length := by omega
      have hsecond : 2 * i + 1 < items.length := by omega
      have hmem := mem_pairs_split_iff.mpr
        ⟨i, List.getElem?_eq_getElem hfirst, List.getElem?_eq_getElem hsecond⟩
      exact ⟨_, _, List.getElem?_eq_getElem hfirst,
        List.getElem?_eq_getElem hsecond, h _ hmem⟩
    constructor
    · intro i hi
      obtain ⟨condition, -, hcondition, -, hP, -⟩ := pair i hi
      exact ⟨condition, hcondition, hP⟩
    · intro i hi
      obtain ⟨-, target, -, htarget, -, hQ⟩ := pair i hi
      exact ⟨target, htarget, hQ⟩
  · rintro ⟨conditions, targets⟩ ⟨condition, target⟩ hmem
    obtain ⟨i, hcondition, htarget⟩ := mem_pairs_split_iff.mp hmem
    have bound : 2 * i + 1 < items.length := by
      obtain ⟨h, -⟩ := List.getElem?_eq_some_iff.mp htarget
      exact h
    have hi : i < items.length / 2 := by omega
    obtain ⟨first, hfirst, hP⟩ := conditions i hi
    obtain ⟨second, hsecond, hQ⟩ := targets i hi
    rw [hcondition] at hfirst
    rw [htarget] at hsecond
    cases hfirst
    cases hsecond
    exact ⟨hP, hQ⟩

theorem chainViolations_eq_nil_iff {items : List Json} :
    chainViolations flag (some variants) items = [] ↔
      WellFormedChain variants items := by
  have fallback : (∀ item, (split items).fallback = some item →
      NamesVariant variants item) ↔
        (items.length % 2 = 1 → ∃ item, items.getLast? = some item ∧
          NamesVariant variants item) := by
    rw [fallback_split]
    cases items with
    | nil => simp
    | cons first rest => simp [List.getLast?_cons]
  rw [chainViolations, List.append_eq_nil_iff, List.append_eq_nil_iff,
    lengthViolations_eq_nil_iff, ruleViolations_eq_nil_iff,
    forall_mem_pairs_split_iff, fallbackViolations_eq_nil_iff, fallback]
  constructor
  · rintro ⟨⟨length, conditions, targets⟩, last⟩
    exact ⟨length, conditions, targets, last⟩
  · rintro ⟨length, conditions, targets, last⟩
    exact ⟨⟨length, conditions, targets⟩, last⟩

end Chains

section Fields

variable {key : String} {fields variants : Entries Json}

theorem stateViolations_eq_nil_iff :
    stateViolations key fields = [] ↔
      Entries.value? "state" fields = some (.str "ENABLED") ∨
        Entries.value? "state" fields = some (.str "DISABLED") := by
  unfold stateViolations
  cases Entries.value? "state" fields with
  | none => simp
  | some state => cases state <;> simp [Decidable.imp_iff_not_or]

theorem variantViolations_eq_nil_iff {expected : Json.Kind}
    {variant : String × Json} :
    variantViolations key expected variant = [] ↔
      variant.1 ≠ "" ∧ variant.2.kind = expected := by
  unfold variantViolations
  by_cases unnamed : variant.1 = "" <;>
    by_cases same : variant.2.kind = expected <;> simp [unnamed, same]

theorem wellFormedVariants_cons_iff {first : String × Json}
    {rest : Entries Json} :
    WellFormedVariants (first :: rest) ↔
      ∀ variant ∈ first :: rest,
        variant.1 ≠ "" ∧ variant.2.kind = first.2.kind := by
  constructor
  · rintro ⟨-, named, kind, uniform⟩ variant hvariant
    constructor
    · intro unnamed
      exact named (List.mem_map.mpr ⟨variant, hvariant, unnamed⟩)
    · rw [uniform variant hvariant, uniform first (by simp)]
  · intro h
    refine ⟨by simp, ?_, first.2.kind, fun variant hvariant =>
      (h variant hvariant).2⟩
    intro unnamed
    obtain ⟨variant, hvariant, hname⟩ := List.mem_map.mp unnamed
    exact (h variant hvariant).1 hname

theorem variantsViolations_eq_nil_iff :
    variantsViolations key fields = [] ↔
      ∃ variants, Entries.value? "variants" fields = some (.obj variants) ∧
        WellFormedVariants variants := by
  unfold variantsViolations
  cases Entries.value? "variants" fields with
  | none => simp
  | some value =>
      cases value with
      | obj variants =>
          cases variants with
          | nil =>
              refine iff_of_false (by simp) ?_
              rintro ⟨variants, same, usable⟩
              cases same
              exact usable.nonempty rfl
          | cons first rest =>
              simp only [List.flatMap_eq_nil_iff, variantViolations_eq_nil_iff,
                ← wellFormedVariants_cons_iff, Option.some.injEq,
                Json.obj.injEq, exists_eq_left']
      | _ => simp

theorem usableVariants_of_given
    (given : Entries.value? "variants" fields = some (.obj variants)) :
    usableVariants fields = some variants := by
  rw [usableVariants, given]

theorem defaultViolations_eq_nil_iff
    (given : Entries.value? "variants" fields = some (.obj variants)) :
    defaultViolations key fields = [] ↔
      ∃ name ∈ variants.names,
        Entries.value? "defaultVariant" fields = some (.str name) := by
  unfold defaultViolations
  rw [usableVariants_of_given given]
  cases Entries.value? "defaultVariant" fields with
  | none => simp
  | some default => cases default <;> simp [isUnknown]

theorem treeViolations_eq_nil_iff {members : Entries Json} :
    treeViolations key (some variants) members = [] ↔
      WellFormedTargeting variants (some (.obj members)) := by
  cases members with
  | nil => exact iff_of_true rfl .empty
  | cons member rest =>
      rw [treeViolations, List.isEmpty_cons, if_neg Bool.false_ne_true]
      constructor
      · intro h
        split at h
        · simp at h
        · rename_i items found
          exact .chain found (chainViolations_eq_nil_iff.mp h)
        · simp at h
      · intro h
        cases h with
        | chain found h =>
            rw [found]
            exact chainViolations_eq_nil_iff.mpr h

theorem targetingViolations_eq_nil_iff
    (given : Entries.value? "variants" fields = some (.obj variants)) :
    targetingViolations key fields = [] ↔
      WellFormedTargeting variants (Entries.value? "targeting" fields) := by
  unfold targetingViolations
  rw [usableVariants_of_given given]
  cases Entries.value? "targeting" fields with
  | none => exact iff_of_true rfl .absent
  | some targeting =>
      cases targeting with
      | null => exact iff_of_true rfl .null
      | obj members => exact treeViolations_eq_nil_iff
      | _ =>
          refine iff_of_false (by simp) ?_
          intro h
          nomatch h

end Fields

theorem flagViolations_obj_eq_nil_iff {key : String} {fields : Entries Json} :
    flagViolations key (.obj fields) = [] ↔
      key ≠ "" ∧ ∃ variants, WellFormedFields fields variants := by
  have hkey : keyViolations key = [] ↔ key ≠ "" := by
    simp [keyViolations]
  simp only [flagViolations, List.append_eq_nil_iff, hkey,
    stateViolations_eq_nil_iff, variantsViolations_eq_nil_iff]
  constructor
  · rintro ⟨named, ⟨⟨state, variants, given, usable⟩, default⟩, targeting⟩
    -- the variants can be used, so no reference went unchecked
    rw [defaultViolations_eq_nil_iff given] at default
    rw [targetingViolations_eq_nil_iff given] at targeting
    exact ⟨named, variants, state, given, usable, default, targeting⟩
  · rintro ⟨named, variants, h⟩
    exact ⟨named, ⟨⟨h.state, variants, h.given, h.usable⟩,
      (defaultViolations_eq_nil_iff h.given).mpr h.default⟩,
      (targetingViolations_eq_nil_iff h.given).mpr h.targeting⟩

theorem flagViolations_eq_nil_iff {key : String} {flag : Json} :
    flagViolations key flag = [] ↔ key ≠ "" ∧ WellFormedFlag flag := by
  cases flag with
  | obj fields =>
      simp only [flagViolations_obj_eq_nil_iff, WellFormedFlag,
        Json.obj.injEq, exists_and_left, exists_eq_left']
  | _ => simp [flagViolations, WellFormedFlag]

theorem violations_eq_nil_iff {document : Json} :
    violations document = [] ↔ WellFormed document := by
  unfold violations WellFormed
  cases document with
  | obj members =>
      simp only [Json.obj.injEq, exists_and_left, exists_eq_left']
      cases Entries.value? "flags" members with
      | none => simp
      | some value =>
          cases value <;>
            simp [List.flatMap_eq_nil_iff, flagViolations_eq_nil_iff]
  | _ => simp

end Validation

example :
    (validate (.obj [("flags", .obj [("f", .obj [
      ("state", .str "DISABLED"), ("defaultVariant", .str "on"),
      ("variants", .obj [("on", .null)]),
      ("targeting", .obj [("if", .arr
        [negation (.arr [negation (call "<=" [])]), .str "on",
          .str "on"])])])])])).valid = true := by
  decide +kernel

end FeatureFlags
