import FeatureFlags.Proofs.ValidDrafts

/-!
# What a saved draft opens as

`Draft.normalForm` says field by field what becomes of a draft that is saved and
opened again, without a flag or a logic tree in between.  Main statement: the
flag that a draft compiles to opens as the normal form of the draft.
-/

namespace FeatureFlags

def Condition.normalForm (condition : Condition) : Condition :=
  if condition.operator = .other "!" then .blank
  else
    { name := condition.name
      operator :=
        if condition.operator = .other "in" then .inString
        else condition.operator
      comparator :=
        if condition.operator = .semVer then condition.comparator else ">="
      value :=
        if condition.operator = .inList ∨ condition.operator = .notInList then
          Text.join ", " condition.listValues
        else condition.value }

def Rule.normalForm (rule : Rule) : Rule :=
  ⟨rule.condition.normalForm, rule.target⟩

namespace Draft

def namedDefault (draft : Draft) : String :=
  if draft.defaultVariant = "" then draft.firstVariantName?.getD ""
  else draft.defaultVariant

/-- What the draft opens as under a key, given the variants it compiles to. -/
def normalForm (draft : Draft) (key : String) (variants : Entries Json) :
    Draft :=
  let type := ValueType.infer (variants.head?.map Prod.snd)
  { key
    description := none
    enabled := draft.enabled
    type
    variants := variants.map fun variant =>
      ⟨variant.1, .ofJson type variant.2⟩
    defaultVariant := draft.namedDefault
    hasTargeting :=
      draft.hasTargeting && (!draft.rules.isEmpty || draft.hasDefaultRule)
    rules :=
      if draft.hasTargeting = true ∧ draft.rules ≠ [] then
        draft.rules.map Rule.normalForm
      else [.placeholder (draft.firstVariantName?.getD "true")]
    hasDefaultRule := draft.hasTargeting && draft.hasDefaultRule
    defaultRule :=
      if draft.hasTargeting = true ∧ draft.hasDefaultRule = true then
        draft.defaultRule
      else draft.namedDefault }

end Draft

theorem Operator.ofKey_of_ofName {key : String}
    (h : Operator.ofName key = .other key) : ofKey key = .other key := by
  unfold ofKey
  split <;> simp_all [ofName]

namespace Logic

theorem toCondition_ofCondition {condition : Condition}
    (form : ∃ name, condition.operator = .ofName name) :
    toCondition (ofCondition condition) = condition.normalForm := by
  rw [Operator.exists_ofName_iff] at form
  obtain ⟨name, operator, comparator, value⟩ := condition
  cases operator with
  | semVer => exact toCondition_version name comparator value
  | inList => exact toCondition_list name (Text.values value)
  | notInList => exact toCondition_notList name (Text.values value)
  | inString => exact toCondition_text name value
  | notInString => exact toCondition_notText name value
  | endsWith =>
      exact @toCondition_key "ends_with" (by decide) (by decide) (by decide)
        name value
  | startsWith =>
      exact @toCondition_key "starts_with" (by decide) (by decide) (by decide)
        name value
  | equals =>
      exact @toCondition_key "==" (by decide) (by decide) (by decide)
        name value
  | other key =>
      change Operator.ofName key = .other key at form
      have same : .ofKey key = Operator.other key :=
        Operator.ofKey_of_ofName form
      have compares : key ≠ semVerKey := by
        rintro rfl
        exact absurd form (by decide)
      by_cases negates : key = notKey
      · subst negates
        exact toCondition_call_notKey _
      · by_cases includes : key = inKey
        · subst includes
          exact toCondition_text name value
        · have plain : Operator.other key ≠ .other "!" := fun h =>
            negates (Operator.other.inj h)
          have generic : Operator.other key ≠ .other "in" := fun h =>
            includes (Operator.other.inj h)
          refine (toCondition_key negates compares includes name value).trans ?_
          simp [Condition.normalForm, plain, generic, same, defaultComparator]

end Logic

theorem names_of_compileVariants {type : ValueType} {variants : List Variant}
    {values : Entries Json} (h : compileVariants type variants = .ok values) :
    values.names = variants.map Variant.name := by
  induction variants generalizing values with
  | nil =>
      cases h
      rfl
  | cons variant rest ih =>
      obtain ⟨json, others, -, hrest, rfl⟩ :=
        compileVariants_cons_eq_ok_iff.mp h
      simp [ih hrest]

theorem Entries.head?_names_collapse {α : Type} (entries : Entries α) :
    entries.collapse.names.head? = entries.names.head? := by
  rw [Entries.names_collapse]
  cases entries.names with
  | nil => rfl
  | cons name names => rw [List.eraseDups_cons]; rfl

namespace Flag

variable {draft : Draft} {flag : Flag}

theorem firstVariantName?_of_toFlag (saved : draft.toFlag = .ok flag) :
    flag.firstVariantName? = draft.firstVariantName? := by
  obtain ⟨values, hvalues, rfl⟩ := Draft.toFlag_eq_ok saved
  have names := names_of_compileVariants hvalues
  have head := Entries.head?_names_collapse values
  rw [names, Entries.names, List.head?_map, List.head?_map] at head
  exact head

theorem openDefault_of_toFlag (saved : draft.toFlag = .ok flag) :
    flag.openDefault = draft.namedDefault := by
  have first := firstVariantName?_of_toFlag saved
  obtain ⟨values, -, rfl⟩ := Draft.toFlag_eq_ok saved
  unfold openDefault Draft.namedDefault
  rw [first]
  by_cases unnamed : draft.defaultVariant = ""
  · simp [unnamed]
  · simp [unnamed, nonempty?_of_ne_empty unnamed]

theorem items_chain_eq_nil_iff :
    draft.chain.items = [] ↔
      draft.rules = [] ∧ draft.hasDefaultRule = false := by
  unfold Draft.chain
  cases draft.rules with
  | nil =>
      cases draft.hasDefaultRule <;>
        simp [Logic.Chain.items, Logic.fallbackItems]
  | cons rule rules => simp

theorem chainItems?_of_toFlag (saved : draft.toFlag = .ok flag) :
    flag.chainItems? =
      if draft.hasTargeting = true ∧ draft.chain.items ≠ [] then
        some draft.chain.items
      else none := by
  obtain ⟨values, -, rfl⟩ := Draft.toFlag_eq_ok saved
  cases targeted : draft.hasTargeting with
  | false => simp [chainItems?, Draft.targeting?, targeted]
  | true =>
      have found : Logic.chainItems? draft.chain.toJson =
          some draft.chain.items := rfl
      simp [chainItems?, Draft.targeting?, targeted, found, Option.filter]

theorem chainSplit_of_toFlag (saved : draft.toFlag = .ok flag) :
    flag.chainSplit =
      if draft.hasTargeting then Logic.split draft.chain.items
      else ⟨[], none⟩ := by
  rw [chainSplit, chainItems?_of_toFlag saved]
  cases draft.hasTargeting with
  | false => rfl
  | true =>
      by_cases empty : draft.chain.items = [] <;> simp [empty]

theorem isSome_chainItems?_of_toFlag (saved : draft.toFlag = .ok flag) :
    flag.chainItems?.isSome =
      (draft.hasTargeting && (!draft.rules.isEmpty || draft.hasDefaultRule)) := by
  rw [chainItems?_of_toFlag saved]
  simp only [ne_eq, items_chain_eq_nil_iff]
  cases draft.hasTargeting <;> cases draft.rules <;>
    cases draft.hasDefaultRule <;> simp

theorem fallback_of_toFlag (saved : draft.toFlag = .ok flag) :
    flag.chainSplit.fallback.map Logic.operandText =
      if draft.hasTargeting = true ∧ draft.hasDefaultRule = true then
        some draft.defaultRule
      else none := by
  rw [chainSplit_of_toFlag saved]
  cases draft.hasTargeting with
  | false => rfl
  | true =>
      rw [if_pos rfl, Logic.split_items, Draft.chain]
      cases draft.hasDefaultRule <;> simp

theorem draftRules_of_toFlag (operators : draft.HasFormOperators)
    (saved : draft.toFlag = .ok flag) :
    flag.draftRules =
      if draft.hasTargeting = true ∧ draft.rules ≠ [] then
        draft.rules.map Rule.normalForm
      else [.placeholder (draft.firstVariantName?.getD "true")] := by
  have placeholder : flag.placeholderTarget =
      draft.firstVariantName?.getD "true" := by
    rw [placeholderTarget, firstVariantName?_of_toFlag saved]
    rfl
  rw [draftRules, chainSplit_of_toFlag saved, placeholder]
  cases draft.hasTargeting with
  | false => rfl
  | true =>
      have pairs : (Logic.split draft.chain.items).pairs.map ruleOf =
          draft.rules.map Rule.normalForm := by
        rw [Validation.pairs_split_chain, List.map_map]
        apply List.map_congr_left
        intro rule hrule
        simp [ruleOf, Rule.normalForm,
          Logic.toCondition_ofCondition (operators rule hrule)]
      rw [if_pos rfl, ← pairs, Validation.pairs_split_chain]
      cases draft.rules with
      | nil => rfl
      | cons rule rules => simp

end Flag

namespace Draft

def looseDraft : Draft where
  key := "loose"
  description := some "not saved"
  enabled := false
  type := .string
  variants := [⟨"on", .text "yes"⟩, ⟨"off", .null⟩, ⟨"on", .bool true⟩]
  defaultVariant := ""
  hasTargeting := true
  rules :=
    [⟨{ name := "mail", operator := .notInList, value := " a@x,b@x ," }, "on"⟩,
      ⟨{ name := "os", operator := .other "in", value := "a, b" }, "gone"⟩,
      ⟨{ name := "os", operator := .other "!", value := "a" }, "off"⟩,
      ⟨.version "app" "=>" "1.0", ""⟩,
      ⟨{ name := "age", operator := .other "<", comparator := "<" }, "on"⟩]
  hasDefaultRule := false
  defaultRule := "off"

end Draft

end FeatureFlags
