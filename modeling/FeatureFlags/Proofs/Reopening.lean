import FeatureFlags.Proofs.NormalForm

/-!
# Opening a draft again and again

A draft that is saved and opened may change: its type is judged anew, its
conditions are read back, and a chain without rules gets a placeholder.  Main
statement: opening the saved draft a second time changes nothing more.

The flag in between may still change, so this does not follow from the law of
`Flag.resaved`.  It does when each rule comes back from its own logic tree.
-/

namespace FeatureFlags

namespace Logic

theorem toCondition_version_without_value (path comparator : String) :
    toCondition (call semVerKey [reference path, .str comparator]) =
      .version path comparator "" := by
  rw [toCondition_call (by decide), recoverCall, if_pos rfl]
  simp [Json.item?, operandAt]

theorem toCondition_ofCondition_blank :
    toCondition (ofCondition .blank) = .blank := by
  decide +kernel

theorem toCondition_ofCondition_settles (condition : Condition) :
    toCondition (ofCondition (toCondition (ofCondition condition))) =
      toCondition (ofCondition condition) := by
  by_cases negates : condition.operator = .other notKey
  · have read : toCondition (ofCondition condition) = .blank := by
      rw [ofCondition, negates]
      exact toCondition_call_notKey _
    rw [read, toCondition_ofCondition_blank]
  · by_cases compares : condition.operator = .other semVerKey
    · -- the value is written where a version comparison has its comparator
      have read : toCondition (ofCondition condition) =
          .version condition.name condition.value "" := by
        rw [ofCondition, compares]
        exact toCondition_version_without_value _ _
      rw [read]
      exact toCondition_version _ _ _
    · have expressible := expressible_ofCondition ⟨negates, compares⟩
      rw [ofCondition_toCondition expressible]

end Logic

theorem FormValue.ofJson_kept (type : ValueType) (json : Json) :
    FormValue.ofJson type (type.kept json) = .ofJson type json := by
  cases type with
  | object => rfl
  | boolean | string | number => cases json <;> rfl

namespace Flag

variable {flag : Flag}

theorem draftVariants_resaved (flag : Flag) :
    flag.resaved.draftVariants = flag.draftVariants := by
  unfold draftVariants
  rw [inferredType_resaved]
  simp [resaved, Table.mapValues, Entries.mapValues, FormValue.ofJson_kept]

theorem openDefault_resaved (flag : Flag) :
    flag.resaved.openDefault = flag.openDefault := by
  have kept := some_openDefault_iff.mpr flag.keepsDefault_resaved
  exact Option.some.inj kept

theorem chainItems?_resaved (flag : Flag) :
    flag.resaved.chainItems? =
      flag.chainItems?.map fun _ => flag.draftChain.items := by
  cases found : flag.chainItems? with
  | none =>
      have absent : flag.resaved.targeting = none := by simp [resaved, found]
      simp [chainItems?, absent]
  | some items =>
      have rules : flag.draftChain.branches ≠ [] := by
        simpa [draftChain] using flag.draftRules_ne_nil
      have long := Logic.two_le_length_items rules
      apply chainItems?_eq_some
      · simp [resaved, found, Logic.Chain.toJson]
      · intro empty
        simp [empty] at long

theorem draftRules_of_pairs (h : flag.chainSplit.pairs ≠ []) :
    flag.draftRules = flag.chainSplit.pairs.map ruleOf := by
  unfold draftRules
  split
  · contradiction
  · rfl

theorem draftRules_resaved
    (settled : ∀ rule ∈ flag.draftRules,
      Logic.toCondition (Logic.ofCondition rule.condition) = rule.condition) :
    flag.resaved.draftRules = flag.draftRules := by
  have target : flag.resaved.placeholderTarget = flag.placeholderTarget := by
    rw [placeholderTarget, firstVariantName?_resaved, placeholderTarget]
  cases found : flag.chainItems? with
  | none =>
      have resaved : flag.resaved.chainItems? = none := by
        rw [chainItems?_resaved, found, Option.map_none]
      simp [draftRules, chainSplit, found, resaved, Logic.split, target]
  | some items =>
      have pairs : flag.resaved.chainSplit.pairs = flag.draftRules.map
          fun rule => (Logic.ofCondition rule.condition, .str rule.target) := by
        rw [chainSplit, chainItems?_resaved, found, Option.map_some,
          Option.getD_some, Logic.split_items]
        simp [draftChain, Rule.toBranch]
      rw [draftRules_of_pairs (by simpa [pairs] using flag.draftRules_ne_nil),
        pairs, List.map_map]
      conv_rhs => rw [← List.map_id flag.draftRules]
      apply List.map_congr_left
      intro rule hrule
      simp [ruleOf, settled rule hrule]

theorem fallback_resaved (flag : Flag) :
    flag.resaved.chainSplit.fallback.map Logic.operandText =
      flag.chainSplit.fallback.map Logic.operandText := by
  rw [chainSplit, chainItems?_resaved]
  cases found : flag.chainItems? with
  | none => simp [chainSplit, found]
  | some items =>
      rw [Option.map_some, Option.getD_some, Logic.split_items]
      simp [draftChain, Function.comp_def]

theorem toDraft_resaved
    (settled : ∀ rule ∈ flag.draftRules,
      Logic.toCondition (Logic.ofCondition rule.condition) = rule.condition)
    (key : String) : flag.resaved.toDraft key = flag.toDraft key := by
  have targeted :
      flag.resaved.chainItems?.isSome = flag.chainItems?.isSome := by
    rw [chainItems?_resaved, Option.isSome_map]
  have state : flag.resaved.state = flag.state := rfl
  simp only [toDraft, state, inferredType_resaved, draftVariants_resaved,
    openDefault_resaved, targeted, draftRules_resaved settled, fallback_resaved]

theorem exists_condition_of_mem_draftRules {draft : Draft}
    (saved : draft.toFlag = .ok flag) :
    ∀ rule ∈ flag.draftRules, ∃ condition,
      rule.condition = Logic.toCondition (Logic.ofCondition condition) := by
  intro rule hrule
  unfold draftRules at hrule
  split at hrule
  · rw [List.mem_singleton.mp hrule]
    exact ⟨.blank, Logic.toCondition_ofCondition_blank.symm⟩
  · obtain ⟨pair, hpair, rfl⟩ := List.mem_map.mp hrule
    rw [chainSplit_of_toFlag saved] at hpair
    split at hpair
    · rw [Validation.pairs_split_chain] at hpair
      obtain ⟨written, -, rfl⟩ := List.mem_map.mp hpair
      exact ⟨written.condition, rfl⟩
    · simp at hpair

end Flag

namespace Draft

/-- The draft that comes of saving a draft and opening it under its own key. -/
def saveAndOpen (draft : Draft) : Except CompileError Draft :=
  draft.toFlag.map fun flag => flag.toDraft draft.key

theorem saveAndOpen_of_toFlag {draft : Draft} {flag : Flag}
    (saved : draft.toFlag = .ok flag) :
    draft.saveAndOpen = .ok (flag.toDraft draft.key) := by
  rw [saveAndOpen, saved, Except.map]

/-- What a draft is opened as is saved and opened without a further change. -/
theorem saveAndOpen_settles {draft : Draft} {flag : Flag}
    (saved : draft.toFlag = .ok flag) (readable : flag.Readable) :
    ∃ opened, draft.saveAndOpen = .ok opened ∧
      opened.saveAndOpen = .ok opened := by
  have settled : ∀ rule ∈ flag.draftRules,
      Logic.toCondition (Logic.ofCondition rule.condition) =
        rule.condition := by
    intro rule hrule
    obtain ⟨condition, written⟩ :=
      Flag.exists_condition_of_mem_draftRules saved rule hrule
    rw [written, Logic.toCondition_ofCondition_settles]
  have resaved := Flag.toFlag_toDraft (fun _ => readable) draft.key
  refine ⟨_, saveAndOpen_of_toFlag saved, ?_⟩
  rw [saveAndOpen_of_toFlag resaved]
  exact congrArg Except.ok (Flag.toDraft_resaved settled draft.key)

def driftingDraft : Draft where
  key := "drift"
  description := some "lost"
  enabled := true
  type := .object
  variants :=
    [⟨"one", .text " 1 "⟩, ⟨"list", .text "[ 0, \x7b\x7d ]"⟩,
      ⟨"one", .number (.real (.zero true))⟩]
  defaultVariant := ""
  hasTargeting := true
  rules :=
    [⟨{ name := "app", operator := .other "sem_ver", value := "1.0" }, "one"⟩,
      ⟨{ name := "os", operator := .other "!", value := "a" }, "list"⟩,
      ⟨{ name := "land", operator := .other "ends_with", value := "x" }, ""⟩,
      ⟨{ operator := .inList, comparator := "<", value := "a ,b," }, "one"⟩]
  hasDefaultRule := false
  defaultRule := "gone"

def driftingFlag : Flag where
  state := .enabled
  defaultVariant := some ""
  variants := .ofEntries
    [("one", .num (.real (.zero true))),
      ("list", .arr [.num (.whole 0 (by decide)), .obj []])]
  targeting := some (Logic.call "if"
    [Logic.call "sem_ver" [Logic.reference "app", .str "1.0"], .str "one",
      Logic.call "!" [Logic.reference "os", .str "a"], .str "list",
      Logic.call "ends_with" [Logic.reference "land", .str "x"], .str "",
      Logic.call "in" [Logic.reference "",
        .arr [.str "a", .str "b", .str ""]], .str "one"])

theorem saveAndOpen_settles_drifting :
    driftingDraft.toFlag = .ok driftingFlag ∧ driftingFlag.Readable ∧
      (driftingFlag.toDraft "drift").toFlag ≠ .ok driftingFlag ∧
      ∃ opened, driftingDraft.saveAndOpen = .ok opened ∧
        opened.saveAndOpen = .ok opened := by
  have saved : driftingDraft.toFlag = .ok driftingFlag := by decide +kernel
  have readable : driftingFlag.Readable := by decide +kernel
  exact ⟨saved, readable, by decide +kernel,
    saveAndOpen_settles saved readable⟩

end Draft

end FeatureFlags
