import FeatureFlags.Proofs.Reopening

/-!
# Conditions without a subject

A condition of a chain is attributed when opening finds the attribute that it
compares.  Any other condition opens with an empty path, the blank condition
among them.  Main statement: the report on an opened flag shows an invalid
reference for exactly the rules whose conditions are not attributed, and for the
placeholder of a chain that has a fallback only.

A report holds messages, so it has to be shown as well that no other violation
of the same draft reads like an invalid reference.
-/

namespace FeatureFlags

namespace Logic

def NamesAttribute (operands : Json) : Prop :=
  ∃ first rest path, operands = .arr (first :: rest) ∧
    first.member? varKey = some path ∧ operandText path ≠ ""

/-- The shapes of which opening keeps the attribute, judged by first members. -/
inductive Attributed : Json → Prop
  | call {key : String} {operands : Json} {others : Entries Json}
      (negates : key ≠ notKey) (names : NamesAttribute operands) :
      Attributed (.obj ((key, operands) :: others))
  | negation {operands : Json} {others outer : Entries Json}
      (names : NamesAttribute operands) :
      Attributed (.obj ((notKey, .obj ((inKey, operands) :: others)) :: outer))

theorem subjectPath_ne_empty_iff {operands : Json} :
    subjectPath operands ≠ "" ↔ NamesAttribute operands := by
  constructor
  · intro path
    cases operands with
    | arr items =>
        cases items with
        | nil => simp [subjectPath, Json.item?] at path
        | cons first rest =>
            cases found : first.member? varKey with
            | none =>
                simp [subjectPath, Json.item?, referencePath?, found] at path
            | some reference =>
                refine ⟨first, rest, reference, rfl, found, ?_⟩
                simpa [subjectPath, Json.item?, referencePath?, found] using path
    | _ => simp [subjectPath, Json.item?] at path
  · rintro ⟨first, rest, path, rfl, found, text⟩
    simpa [subjectPath, Json.item?, referencePath?, found] using text

theorem name_recoverMembership (list text : Operator) (operands : Json) :
    (recoverMembership list text operands).name = subjectPath operands := by
  unfold recoverMembership
  split <;> rfl

theorem name_recoverCall (key : String) (operands : Json) :
    (recoverCall key operands).name = subjectPath operands := by
  unfold recoverCall
  split
  · rfl
  · split
    · exact name_recoverMembership _ _ _
    · rfl

theorem firstMember?_eq_some {tree : Json} {member : String × Json}
    (h : firstMember? tree = some member) :
    ∃ others, tree = .obj (member :: others) := by
  unfold firstMember? at h
  split at h
  · cases h
    exact ⟨_, rfl⟩
  · simp at h

theorem name_recoverNegation_ne_empty {content : Json}
    (named : (recoverNegation content).toCondition.name ≠ "") :
    ∃ operands others, content = .obj ((inKey, operands) :: others) ∧
      NamesAttribute operands := by
  unfold recoverNegation at named
  split at named
  · exact absurd rfl named
  · rename_i key operands first
    obtain ⟨others, rfl⟩ := firstMember?_eq_some first
    split at named
    · rename_i includes
      subst includes
      rw [Recovered.toCondition, name_recoverMembership] at named
      exact ⟨operands, others, rfl, subjectPath_ne_empty_iff.mp named⟩
    · exact absurd rfl named

theorem name_toCondition_ne_empty_iff {tree : Json} :
    (toCondition tree).name ≠ "" ↔ Attributed tree := by
  constructor
  · intro named
    unfold toCondition recover at named
    split at named
    · exact absurd rfl named
    · rename_i key content first
      obtain ⟨outer, rfl⟩ := firstMember?_eq_some first
      split at named
      · rename_i negates
        subst negates
        obtain ⟨operands, others, rfl, names⟩ :=
          name_recoverNegation_ne_empty named
        exact .negation names
      · rename_i negates
        rw [Recovered.toCondition, name_recoverCall] at named
        exact .call negates (subjectPath_ne_empty_iff.mp named)
  · intro attributed
    cases attributed with
    | @call key operands others negates names =>
        have read : toCondition (.obj ((key, operands) :: others)) =
            recoverCall key operands := by
          simp [toCondition, recover, firstMember?, negates,
            Recovered.toCondition]
        rw [read, name_recoverCall]
        exact subjectPath_ne_empty_iff.mpr names
    | @negation operands others outer names =>
        have read : toCondition
            (.obj ((notKey, .obj ((inKey, operands) :: others)) :: outer)) =
              recoverMembership .notInList .notInString operands := by
          simp [toCondition, recover, recoverNegation, firstMember?,
            Recovered.toCondition]
        rw [read, name_recoverMembership]
        exact subjectPath_ne_empty_iff.mpr names

instance (tree : Json) : Decidable (Attributed tree) :=
  decidable_of_iff _ name_toCondition_ne_empty_iff

end Logic

@[simp] theorem mem_foundIf_iff {condition : Prop} [Decidable condition]
    {violation other : Violation} :
    other ∈ foundIf condition violation ↔ condition ∧ other = violation := by
  unfold foundIf
  split <;> simp_all

theorem Condition.invalidReference_mem_findings_iff {condition : Condition}
    {key : String} {number rule : Nat} :
    .invalidReference key rule ∈ condition.findings key number ↔
      rule = number ∧ condition.operator ≠ .other "!" ∧
        condition.name = "" := by
  unfold Condition.findings
  split
  · rename_i negates
    simp [negates]
  · rename_i negates
    split <;> simp [negates] <;> tauto

theorem Rule.invalidReference_mem_findings_iff {rule : Rule} {key : String}
    {variants : List String} {number place : Nat} :
    .invalidReference key place ∈ rule.findings key variants number ↔
      place = number ∧ rule.condition.operator ≠ .other "!" ∧
        rule.condition.name = "" := by
  simp [Rule.findings, Condition.invalidReference_mem_findings_iff]

namespace Draft

variable {draft : Draft} {variants : Entries Json}

theorem invalidReference_notMem_variantFindings (draft : Draft)
    (variants : Entries Json) (rule : Nat) :
    .invalidReference draft.key rule ∉ draft.variantFindings variants := by
  unfold variantFindings
  split <;> simp

theorem invalidReference_mem_findings_iff {index : Nat} :
    .invalidReference draft.key (index + 1) ∈ draft.findings variants ↔
      draft.hasTargeting = true ∧
        ∃ rule, draft.rules[index]? = some rule ∧
          rule.condition.operator ≠ .other "!" ∧ rule.condition.name = "" := by
  have targeting : .invalidReference draft.key (index + 1) ∈
      draft.targetingFindings variants.names ↔
        ∃ rule, draft.rules[index]? = some rule ∧
          rule.condition.operator ≠ .other "!" ∧
          rule.condition.name = "" := by
    simp only [targetingFindings, List.mem_append, mem_foundIf_iff, reduceCtorEq,
      and_false, false_or, or_false, List.mem_flatMap,
      Rule.invalidReference_mem_findings_iff]
    constructor
    · rintro ⟨⟨rule, place⟩, found, rfl, negates, unnamed⟩
      have place := (List.mem_zipIdx_iff_le_and_getElem?_sub.mp found).2
      exact ⟨rule, place, negates, unnamed⟩
    · rintro ⟨rule, place, negates, unnamed⟩
      refine ⟨(rule, index + 1), ?_, rfl, negates, unnamed⟩
      exact List.mem_zipIdx_iff_le_and_getElem?_sub.mpr
        ⟨Nat.le_add_left 1 index, place⟩
  have variantsOnly :=
    invalidReference_notMem_variantFindings draft variants (index + 1)
  unfold findings
  split <;> simp_all

end Draft

/-! ## Messages -/

def Report.Shows (report : Report) (violation : Violation) : Prop :=
  violation.message ∈ report.errors

instance (report : Report) (violation : Violation) :
    Decidable (report.Shows violation) :=
  inferInstanceAs (Decidable (_ ∈ _))

namespace Violation

/-- What the violation says of a flag it says of this one. -/
def Concerns (key : String) : Violation → Prop
  | rootNotObject => True
  | missingFlags => True
  | flagsNotObject => True
  | emptyFlagKey => True
  | flagNotObject flag => flag = key
  | missingField flag _ => flag = key
  | invalidState flag _ => flag = key
  | wrongKind flag _ _ _ => flag = key
  | noVariants flag => flag = key
  | emptyVariantName flag => flag = key
  | mixedKinds flag _ _ _ => flag = key
  | duplicateVariant flag _ => flag = key
  | unknownDefault flag _ => flag = key
  | emptyChain flag => flag = key
  | fallbackOnly flag => flag = key
  | malformedCondition flag _ => flag = key
  | operandsNotArray flag _ _ => flag = key
  | invalidReference flag _ => flag = key
  | unsupportedComparator flag _ _ => flag = key
  | targetNotString flag _ => flag = key
  | unknownTarget flag _ _ => flag = key
  | fallbackNotString flag => flag = key
  | unknownFallback flag _ => flag = key

theorem space_notMem_toDigits (number : Nat) :
    ' ' ∉ Nat.toDigits 10 number := by
  intro space
  have digit := Nat.isDigit_of_mem_toDigits (by decide) (by decide) space
  simp [Char.isDigit] at digit

theorem toDigits_inj {number other : Nat}
    (same : Nat.toDigits 10 number = Nat.toDigits 10 other) :
    number = other := by
  have numbers := congrArg (Nat.ofDigitChars 10 · 0) same
  simpa only [Nat.ofDigitChars_ten_toDigits] using numbers

theorem toDigits_append_space_inj {number other : Nat} {after later : List Char}
    (same : Nat.toDigits 10 number ++ ' ' :: after =
      Nat.toDigits 10 other ++ ' ' :: later) :
    number = other ∧ after = later := by
  have pieces := congrArg (Text.cut ' ') same
  rw [Text.cut_append_cons (space_notMem_toDigits number),
    Text.cut_append_cons (space_notMem_toDigits other)] at pieces
  have digits := (List.cons.inj pieces).1
  rw [digits, List.append_cancel_left_eq, List.cons.injEq] at same
  exact ⟨toDigits_inj digits, same.2⟩

theorem eq_invalidReference_of_message {violation : Violation} {key : String}
    {rule : Nat} (concerns : violation.Concerns key)
    (same : violation.message = (invalidReference key rule).message) :
    violation = invalidReference key rule := by
  cases violation with
  | invalidReference flag number =>
      cases concerns
      simp [message, ofRule, ← String.toList_inj] at same
      rw [toDigits_inj same]
  | malformedCondition | operandsNotArray | unsupportedComparator
    | targetNotString | unknownTarget =>
      -- the texts part after the number of the rule
      cases concerns
      simp [message, ofFlag, ofRule, ← String.toList_inj] at same
      have differs := (toDigits_append_space_inj same).2
      simp at differs
  | _ =>
      cases concerns
      simp [message, ofFlag, ofRule, ← String.toList_inj] at same

end Violation

open Violation in
theorem Condition.concerns_of_mem_findings {condition : Condition} {key : String}
    {number : Nat} : ∀ violation ∈ condition.findings key number,
      violation.Concerns key := by
  intro violation found
  unfold Condition.findings at found
  split at found
  · rw [List.mem_singleton.mp found]
    rfl
  · split at found <;>
      simp only [List.mem_append, mem_foundIf_iff, List.not_mem_nil, or_false]
        at found
    · rcases found with ⟨-, rfl⟩ | ⟨-, rfl⟩ <;> rfl
    · rw [found.2]
      rfl

namespace Draft

variable {draft : Draft} {variants : Entries Json}

theorem concerns_of_mem_variantFindings :
    ∀ violation ∈ draft.variantFindings variants,
      violation.Concerns draft.key := by
  intro violation found
  unfold variantFindings at found
  split at found
  · rw [List.mem_singleton.mp found]
    rfl
  · obtain ⟨variant, -, found⟩ := List.mem_flatMap.mp found
    simp only [List.mem_append, mem_foundIf_iff] at found
    rcases found with ⟨-, rfl⟩ | ⟨-, rfl⟩ <;> rfl

theorem concerns_of_mem_targetingFindings {names : List String} :
    ∀ violation ∈ draft.targetingFindings names,
      violation.Concerns draft.key := by
  intro violation found
  simp only [targetingFindings, List.mem_append, mem_foundIf_iff,
    List.mem_flatMap, Rule.findings] at found
  rcases found with ((⟨-, rfl⟩ | ⟨-, rfl⟩) | ⟨rule, -, found | ⟨-, rfl⟩⟩) |
    ⟨-, rfl⟩
  · rfl
  · rfl
  · exact Condition.concerns_of_mem_findings violation found
  · rfl
  · rfl

theorem concerns_of_mem_findings :
    ∀ violation ∈ draft.findings variants, violation.Concerns draft.key := by
  intro violation found
  simp only [findings, List.mem_append, mem_foundIf_iff, List.mem_map] at found
  rcases found with (((⟨name, -, rfl⟩ | ⟨-, rfl⟩) | found) | ⟨-, rfl⟩) | found
  · rfl
  · trivial
  · exact concerns_of_mem_variantFindings violation found
  · rfl
  · split at found
    · exact concerns_of_mem_targetingFindings violation found
    · simp at found

theorem shows_invalidReference_iff {flag : Flag}
    (saved : draft.toFlag = .ok flag) (index : Nat) :
    draft.validate.Shows (.invalidReference draft.key (index + 1)) ↔
      draft.hasTargeting = true ∧
        ∃ rule, draft.rules[index]? = some rule ∧
          rule.condition.operator ≠ .other "!" ∧ rule.condition.name = "" := by
  rw [Report.Shows, validate_of_toFlag saved, Report.ofViolations, List.mem_map,
    ← @invalidReference_mem_findings_iff draft flag.variants.entries]
  constructor
  · rintro ⟨violation, found, same⟩
    have concerns := concerns_of_mem_findings violation found
    rwa [Violation.eq_invalidReference_of_message concerns same] at found
  · intro found
    exact ⟨_, found, rfl⟩

end Draft

namespace Flag

variable {flag : Flag} {targeting : Json} {items : List Json}

theorem chainItems?_of_member (given : flag.targeting = some targeting)
    (chain : targeting.member? Logic.ifKey = some (.arr items))
    (nonempty : items ≠ []) : flag.chainItems? = some items := by
  simp [chainItems?, given, Logic.chainItems?, chain, nonempty]

theorem operator_ne_of_mem_draftRules {rule : Rule}
    (h : rule ∈ flag.draftRules) : rule.condition.operator ≠ .other "!" :=
  (regular_of_mem_draftRules h).1

theorem draftRules_of_single {last : Json}
    (found : flag.chainItems? = some [last]) :
    flag.draftRules = [.placeholder flag.placeholderTarget] := by
  simp [draftRules, chainSplit, found, Logic.split]

theorem getElem?_draftRules (found : flag.chainItems? = some items)
    (conditions : 2 ≤ items.length) (index : Nat) :
    flag.draftRules[index]? =
      (items[2 * index]?).bind fun condition =>
        (items[2 * index + 1]?).map fun target => ruleOf (condition, target) := by
  have split := chainSplit_of_chainItems? found
  have pairs := Logic.pairs_split_ne_nil conditions
  rw [draftRules_of_pairs (by rwa [split]), List.getElem?_map, split,
    Logic.getElem?_pairs_split]
  cases items[2 * index]? <;> simp [Function.comp_def]

theorem unnamed_draftRules_iff (found : flag.chainItems? = some items)
    (nonempty : items ≠ []) (index : Nat) :
    (∃ rule, flag.draftRules[index]? = some rule ∧ rule.condition.name = "") ↔
      (items.length = 1 ∧ index = 0) ∨
        ∃ condition target, items[2 * index]? = some condition ∧
          items[2 * index + 1]? = some target ∧
          ¬ Logic.Attributed condition := by
  match items, nonempty with
  | [last], _ =>
      rw [draftRules_of_single found]
      cases index with
      | zero => simp [Rule.placeholder, Condition.blank]
      | succ index => simp
  | first :: second :: rest, _ =>
      rw [getElem?_draftRules found (by simp) index]
      simp only [Option.bind_eq_some_iff, Option.map_eq_some_iff]
      constructor
      · rintro ⟨rule, ⟨condition, hcondition, target, htarget, rfl⟩, unnamed⟩
        refine .inr ⟨condition, target, hcondition, htarget, ?_⟩
        rw [← Logic.name_toCondition_ne_empty_iff, not_not]
        exact unnamed
      · rintro (⟨single, -⟩ | ⟨condition, target, hcondition, htarget, lost⟩)
        · simp at single
        · rw [← Logic.name_toCondition_ne_empty_iff, not_not] at lost
          exact ⟨_, ⟨condition, hcondition, target, htarget, rfl⟩, lost⟩

/--
The report on an opened flag shows an invalid reference for the placeholder of a
chain without conditions, and for every rule whose condition is not attributed.
A condition that opening has replaced by the blank one is among these.
-/
theorem shows_invalidReference_toDraft_iff
    (given : flag.targeting = some targeting)
    (chain : targeting.member? Logic.ifKey = some (.arr items))
    (nonempty : items ≠ []) (readable : flag.Readable) (key : String) :
    (∀ index, (flag.toDraft key).validate.Shows
        (.invalidReference key (index + 1)) ↔
      (items.length = 1 ∧ index = 0) ∨
        ∃ condition target, items[2 * index]? = some condition ∧
          items[2 * index + 1]? = some target ∧
          ¬ Logic.Attributed condition) ∧
    ∀ index condition target, items[2 * index]? = some condition →
      items[2 * index + 1]? = some target →
      Logic.toCondition condition = .blank →
        (flag.toDraft key).validate.Shows
          (.invalidReference key (index + 1)) := by
  have found := chainItems?_of_member given chain nonempty
  have saved := toFlag_toDraft (fun _ => readable) key
  have targeted : (flag.toDraft key).hasTargeting = true := by
    simp [toDraft, found]
  have shown (index : Nat) : (flag.toDraft key).validate.Shows
      (.invalidReference key (index + 1)) ↔
        ∃ rule, flag.draftRules[index]? = some rule ∧
          rule.condition.name = "" := by
    refine (Draft.shows_invalidReference_iff saved index).trans ?_
    constructor
    · rintro ⟨-, rule, hrule, -, unnamed⟩
      exact ⟨rule, hrule, unnamed⟩
    · rintro ⟨rule, hrule, unnamed⟩
      have negates := operator_ne_of_mem_draftRules (List.mem_of_getElem? hrule)
      exact ⟨targeted, rule, hrule, negates, unnamed⟩
  constructor
  · intro index
    exact (shown index).trans (unnamed_draftRules_iff found nonempty index)
  · intro index condition target hcondition htarget blank
    rw [shown, unnamed_draftRules_iff found nonempty]
    refine .inr ⟨condition, target, hcondition, htarget, ?_⟩
    rw [← Logic.name_toCondition_ne_empty_iff, blank]
    exact not_not.mpr rfl

def blurredFlag : Flag where
  state := .enabled
  defaultVariant := none
  variants := .ofEntries [("on", .bool true), ("off", .bool false)]
  targeting := some (.obj [("else", .null), ("if", .arr
    [.obj [("<", .arr [.obj [("x", .null), ("var", .bool true)], .str "1"])],
      .str "on",
      .obj [("!", .arr [.obj [("in", .arr [.obj [("var", .str "os")]])]])],
      .str "off",
      .obj [("!", .obj [("in", .arr [.obj [("var", .str "os")]])]), ("y", .null)],
      .str "on",
      .obj [("==", .arr [.obj [("var", .arr [])], .str "1"])], .null,
      .obj [], .str "gone", .str "on"])])

theorem shows_invalidReference_toDraft_iff_blurred :
    blurredFlag.Readable ∧
      ((blurredFlag.toDraft "b").validate.Shows (.invalidReference "b" 2) ∧
        (blurredFlag.toDraft "b").validate.Shows (.invalidReference "b" 4) ∧
        (blurredFlag.toDraft "b").validate.Shows (.invalidReference "b" 5)) ∧
      ¬ (blurredFlag.toDraft "b").validate.Shows (.invalidReference "b" 1) := by
  have readable : blurredFlag.Readable := by decide +kernel
  obtain ⟨shown, replaced⟩ := @shows_invalidReference_toDraft_iff blurredFlag
    _ _ rfl rfl (List.cons_ne_nil _ _) readable "b"
  refine ⟨readable, ⟨?_, ?_, ?_⟩, ?_⟩
  · exact replaced 1 _ _ rfl rfl (by decide +kernel)
  · exact (shown 3).mpr (.inr ⟨_, _, rfl, rfl, by decide +kernel⟩)
  · exact replaced 4 _ _ rfl rfl (by decide +kernel)
  · intro first
    rcases (shown 0).mp first with ⟨single, -⟩ | ⟨condition, target, place, -, lost⟩
    · exact absurd single (by decide)
    · cases place
      exact lost (by decide +kernel)

end Flag

end FeatureFlags
