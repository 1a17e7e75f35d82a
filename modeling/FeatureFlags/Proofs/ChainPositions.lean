import FeatureFlags.Proofs.MissingSubjects

/-!
# Chains opened by position

Opening reads the items of a chain by their places alone, whatever they are.
Main statement: the rules are those of the pairs, the last item of a chain of odd
length is the fallback and has no part in any rule, and a flag without pairs opens
with a placeholder for its rules.
-/

namespace FeatureFlags

/-- What the items of a chain decide of a draft, each by its place. -/
structure Draft.ReadByPlace (draft : Draft) (items : List Json)
    (placeholder : Rule) : Prop where
  targeted : draft.hasTargeting = true
  fallback_iff : draft.hasDefaultRule = true ↔ items.length % 2 = 1
  fallback : ∀ last, items.getLast? = some last →
    draft.defaultRule =
      if items.length % 2 = 1 then Logic.operandText last
      else draft.defaultVariant
  count : 2 ≤ items.length → draft.rules.length = items.length / 2
  rule : ∀ index condition target, items[2 * index]? = some condition →
    items[2 * index + 1]? = some target →
      draft.rules[index]? =
        some ⟨Logic.toCondition condition, Logic.operandText target⟩
  placeholder : items.length = 1 → draft.rules = [placeholder]

namespace Flag

def HasItems (flag : Flag) (items : List Json) : Prop :=
  ∃ targeting, flag.targeting = some targeting ∧
    targeting.member? "if" = some (.arr items)

variable {flag other : Flag} {items : List Json}

theorem chainItems?_eq_none_iff :
    flag.chainItems? = none ↔ ∀ items, flag.HasItems items → items = [] := by
  have given (items : List Json) : flag.HasItems items ↔
      flag.targeting.bind Logic.chainItems? = some items := by
    simp only [Option.bind_eq_some_iff, Logic.chainItems?_eq_some_iff]
    rfl
  simp only [given, chainItems?, Option.filter_eq_none_iff]
  simp

theorem hasDefaultRule_toDraft_iff (found : flag.chainItems? = some items)
    (key : String) :
    (flag.toDraft key).hasDefaultRule = true ↔ items.length % 2 = 1 := by
  rw [← Logic.isSome_fallback_split_iff, ← chainSplit_of_chainItems? found]
  simp [toDraft]

theorem defaultRule_toDraft (found : flag.chainItems? = some items) {last : Json}
    (final : items.getLast? = some last) (key : String) :
    (flag.toDraft key).defaultRule =
      if items.length % 2 = 1 then Logic.operandText last
      else (flag.toDraft key).defaultVariant := by
  have fallback := Logic.fallback_split items
  rw [← chainSplit_of_chainItems? found, final] at fallback
  by_cases odd : items.length % 2 = 1 <;> simp [toDraft, fallback, odd]

theorem length_draftRules (found : flag.chainItems? = some items)
    (pairs : 2 ≤ items.length) : flag.draftRules.length = items.length / 2 := by
  have split := chainSplit_of_chainItems? found
  have nonempty := Logic.pairs_split_ne_nil pairs
  rw [draftRules_of_pairs (by rwa [split]), List.length_map, split,
    Logic.length_pairs_split]

theorem getElem?_draftRules_of_pair (found : flag.chainItems? = some items)
    {index : Nat} {condition target : Json}
    (hcondition : items[2 * index]? = some condition)
    (htarget : items[2 * index + 1]? = some target) :
    flag.draftRules[index]? = some (ruleOf (condition, target)) := by
  have inside : 2 * index + 1 < items.length :=
    (List.getElem?_eq_some_iff.mp htarget).1
  rw [getElem?_draftRules found (by omega), hcondition, htarget]
  rfl

theorem draftRules_congr (pairs : flag.chainSplit.pairs = other.chainSplit.pairs)
    (placeholder : flag.placeholderTarget = other.placeholderTarget) :
    flag.draftRules = other.draftRules := by
  rw [draftRules, draftRules, pairs, placeholder]

theorem draftRules_of_last (odd : items.length % 2 = 1)
    (found : flag.chainItems? = some items) (last : Json) :
    { flag with
      targeting := some (Logic.call "if" (items.dropLast ++ [last])) }.draftRules =
        flag.draftRules := by
  have nonempty : items ≠ [] := by
    rintro rfl
    simp at odd
  have even : items.dropLast.length % 2 = 0 := by
    rw [List.length_dropLast]
    omega
  have same := Logic.split_concat_of_even even (items.getLast nonempty)
  rw [List.dropLast_append_getLast nonempty] at same
  refine draftRules_congr ?_ ?_
  · rw [chainSplit_of_chainItems? found, same,
      chainSplit_of_chainItems? (chainItems?_eq_some rfl (by simp)),
      Logic.split_concat_of_even even]
  · rfl

theorem readByPlace_toDraft (found : flag.chainItems? = some items)
    (key : String) :
    (flag.toDraft key).ReadByPlace items
      (.placeholder (flag.firstVariantName?.getD "true")) where
  targeted := by simp [toDraft, found]
  fallback_iff := hasDefaultRule_toDraft_iff found key
  fallback := fun _ final => defaultRule_toDraft found final key
  count := length_draftRules found
  rule := fun _ _ _ => getElem?_draftRules_of_pair found
  placeholder := by
    intro single
    obtain ⟨last, rfl⟩ := List.length_eq_one_iff.mp single
    exact draftRules_of_single found

def misplacedItems : List Json :=
  [.str "on", .obj [("==", .arr [])],
    .obj [("in", .arr [.obj [("var", .str "os")], .str "mac"])],
    .arr [.str "a", .null], .obj [("!", .obj [])]]

def misplacedFlag : Flag where
  state := .enabled
  defaultVariant := some "on"
  variants := .ofEntries [("on", .bool true)]
  targeting := some (.obj [("else", .null), ("if", .arr misplacedItems)])

def barrenFlag : Flag where
  state := .disabled
  defaultVariant := none
  variants := .empty
  targeting := some (.obj [("if", .arr [])])

end Flag

end FeatureFlags
