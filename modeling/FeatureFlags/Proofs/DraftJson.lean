import FeatureFlags.Proofs.Records
import FeatureFlags.Proofs.ValidDrafts
import FeatureFlags.Proofs.ValueText

/-!
# Drafts written and read

A draft that is written as JSON and read again keeps everything but the
operators that the form knows by another name: reading takes every operator by
its name in the form.  Main statement: the draft of a flag is read back as it
was exactly when no condition of the flag's chain has a name of the form as its
key, and its text is read back as its JSON when its numbers are.
-/

namespace FeatureFlags

def Condition.reread (condition : Condition) : Condition :=
  { condition with operator := .ofName condition.operator.name }

def Rule.reread (rule : Rule) : Rule := ⟨rule.condition.reread, rule.target⟩

def Draft.reread (draft : Draft) : Draft :=
  { draft with rules := draft.rules.map Rule.reread }

theorem Condition.ofJson_toJson (condition : Condition) :
    Condition.reader.ofJson condition.toJson = .ok condition.reread := rfl

theorem Rule.ofJson_toJson (rule : Rule) :
    Rule.reader.ofJson rule.toJson = .ok rule.reread := rfl

theorem Variant.ofJson_toJson (variant : Variant) :
    Variant.reader.ofJson variant.toJson = .ok variant := by
  obtain ⟨name, value⟩ := variant
  cases value <;> rfl

theorem ValueType.ofJson_toJson (type : ValueType) :
    ValueType.reader.ofJson type.toJson = .ok type := by
  cases type <;> rfl

theorem ofJson_optionalText (text : Option String) :
    Shape.Reader.text.nullable.ofJson (optionalText text) = .ok text := by
  cases text <;> rfl

open Shape.Record in
theorem Draft.ofJson_toJson (draft : Draft) :
    Draft.reader.ofJson draft.toJson = .ok draft.reread := by
  have description := ofJson_optionalText draft.description
  have type := ValueType.ofJson_toJson draft.type
  have rules := Shape.Reader.readItems_map Rule.ofJson_toJson draft.rules
  have variants : Variant.reader.list.ofJson
      (.arr (draft.variants.map Variant.toJson)) = .ok draft.variants :=
    (Shape.Reader.readItems_map Variant.ofJson_toJson draft.variants).trans
      (by rw [List.map_id'])
  apply ofMembers_eq_ok_iff.mpr
  -- field by field, from the last one back
  refine build_field ?_ rfl rfl
  refine build_field ?_ rfl rfl
  refine build_field ?_ rfl rules
  refine build_field ?_ rfl rfl
  refine build_field ?_ rfl rfl
  refine build_field ?_ rfl variants
  refine build_field ?_ rfl type
  refine build_field ?_ rfl rfl
  refine build_field ?_ rfl description
  refine build_field ?_ rfl rfl
  rfl

theorem Condition.reread_eq_self_iff {condition : Condition} :
    condition.reread = condition ↔
      .ofName condition.operator.name = condition.operator := by
  constructor
  · exact congrArg Condition.operator
  · intro same
    rw [reread, same]

theorem Rule.reread_eq_self_iff {rule : Rule} :
    rule.reread = rule ↔ rule.condition.reread = rule.condition := by
  obtain ⟨condition, target⟩ := rule
  simp [reread]

theorem Draft.reread_eq_self_iff {draft : Draft} :
    draft.reread = draft ↔
      ∀ rule ∈ draft.rules, rule.condition.reread = rule.condition := by
  have rules : draft.reread = draft ↔
      draft.rules.map Rule.reread = draft.rules.map id := by
    rw [List.map_id]
    constructor
    · exact congrArg Draft.rules
    · intro same
      rw [reread, same]
  simp only [rules, List.map_inj_left, id, Rule.reread_eq_self_iff]

/-- Names that the form has for an operator and the engine has for none. -/
def formNames : List String :=
  ["in_list", "not_in_list", "in_string", "not_in_string"]

theorem Operator.ofName_eq_ofKey_iff {key : String}
    (compares : key ≠ "sem_ver") :
    ofName key = ofKey key ↔ key ∉ formNames := by
  unfold ofName
  split <;> simp_all [ofKey, formNames]

namespace Logic

theorem reread_recoverMembership {list text : Operator}
    (hlist : .ofName list.name = list) (htext : .ofName text.name = text)
    (operands : Json) :
    (recoverMembership list text operands).reread =
      recoverMembership list text operands := by
  rw [Condition.reread_eq_self_iff]
  unfold recoverMembership
  split
  · exact hlist
  · exact htext

theorem reread_recoverCall_iff (key : String) (operands : Json) :
    (recoverCall key operands).reread = recoverCall key operands ↔
      key ∉ formNames := by
  unfold recoverCall
  split
  · rename_i compares
    subst compares
    exact iff_of_true rfl (by decide)
  · rename_i compares
    split
    · rename_i includes
      subst includes
      exact iff_of_true (reread_recoverMembership rfl rfl operands) (by decide)
    · rw [Condition.reread_eq_self_iff, Operator.name_ofKey]
      exact Operator.ofName_eq_ofKey_iff compares

theorem reread_recoverNegation (inner : Json) :
    (recoverNegation inner).toCondition.reread =
      (recoverNegation inner).toCondition := by
  unfold recoverNegation
  split
  · rfl
  · split
    · exact reread_recoverMembership rfl rfl _
    · rfl

theorem reread_toCondition_iff {tree : Json} :
    (toCondition tree).reread = toCondition tree ↔
      ∀ member ∈ firstMember? tree, member.1 ∉ formNames := by
  unfold toCondition recover
  cases firstMember? tree with
  | none => exact iff_of_true rfl (by simp)
  | some member =>
      simp only [Option.mem_some_iff, forall_eq']
      split
      · rename_i negates
        rw [negates]
        exact iff_of_true (reread_recoverNegation member.2) (by decide)
      · exact reread_recoverCall_iff member.1 member.2

end Logic

namespace Flag

/-- No condition of the flag's chain has a name of the form as its key. -/
def HasEngineKeys (flag : Flag) : Prop :=
  ∀ pair ∈ flag.chainSplit.pairs, ∀ member ∈ Logic.firstMember? pair.1,
    member.1 ∉ formNames

instance (flag : Flag) : Decidable flag.HasEngineKeys :=
  inferInstanceAs (Decidable (∀ pair ∈ flag.chainSplit.pairs, _))

theorem reread_toDraft_iff {flag : Flag} (key : String) :
    (flag.toDraft key).reread = flag.toDraft key ↔ flag.HasEngineKeys := by
  rw [Draft.reread_eq_self_iff]
  change (∀ rule ∈ flag.draftRules, _) ↔ _
  unfold draftRules HasEngineKeys
  split
  · rename_i empty
    rw [empty, List.forall_mem_singleton]
    exact iff_of_true rfl (List.forall_mem_nil _)
  · rw [List.forall_mem_map]
    exact forall₂_congr fun pair _ => Logic.reread_toCondition_iff

end Flag

/-! ## Texts of drafts -/

section Legible

open Json (Legible)

variable {depth : Nat}

theorem Condition.legible_toJson (condition : Condition) :
    Legible (depth + 1) condition.toJson := by
  refine .obj (by simp [Entries.names]) ?_
  simp only [List.forall_mem_cons]
  exact ⟨.str _ _, .str _ _, .str _ _, .str _ _, List.forall_mem_nil _⟩

theorem Rule.legible_toJson (rule : Rule) :
    Legible (depth + 2) rule.toJson := by
  refine .obj (by simp [Entries.names]) ?_
  simp only [List.forall_mem_cons]
  exact ⟨rule.condition.legible_toJson, .str _ _, List.forall_mem_nil _⟩

def FormValue.ReadsBack : FormValue → Prop
  | number (.real value) => (Json.Number.real value).ReadsBack
  | _ => True

instance : (value : FormValue) → Decidable value.ReadsBack
  | .number (.real _) => inferInstanceAs (Decidable (_ = _))
  | .number (.whole _ _) => inferInstanceAs (Decidable True)
  | .bool _ => inferInstanceAs (Decidable True)
  | .text _ => inferInstanceAs (Decidable True)
  | .null => inferInstanceAs (Decidable True)

theorem FormValue.legible_toJson {value : FormValue}
    (readsBack : value.ReadsBack) : Legible depth value.toJson := by
  cases value with
  | bool value => exact .bool _ value
  | text text => exact .str _ text
  | null => exact .null _
  | number n =>
      cases n with
      | whole value fits =>
          exact .num _ (Json.Number.readsBack_whole value fits)
      | real value => exact .num _ readsBack

theorem Variant.legible_toJson {variant : Variant}
    (readsBack : variant.value.ReadsBack) :
    Legible (depth + 1) variant.toJson := by
  refine .obj (by simp [Entries.names]) ?_
  simp only [List.forall_mem_cons]
  exact ⟨.str _ _, FormValue.legible_toJson readsBack, List.forall_mem_nil _⟩

theorem Draft.legible_toJson {draft : Draft}
    (readsBack : ∀ variant ∈ draft.variants, variant.value.ReadsBack) :
    Legible (depth + 4) draft.toJson := by
  have description : Legible (depth + 3) (optionalText draft.description) := by
    cases draft.description with
    | none => exact .null _
    | some text => exact .str _ text
  have variants :
      Legible (depth + 3) (.arr (draft.variants.map Variant.toJson)) :=
    .arr (List.forall_mem_map.mpr fun variant hvariant =>
      Variant.legible_toJson (readsBack variant hvariant))
  have rules : Legible (depth + 3) (.arr (draft.rules.map Rule.toJson)) :=
    .arr (List.forall_mem_map.mpr fun rule _ => rule.legible_toJson)
  refine .obj (by simp [Entries.names]) ?_
  simp only [List.forall_mem_cons]
  exact ⟨.str _ _, description, .bool _ _, .str _ _, variants, .str _ _,
    .bool _ _, rules, .bool _ _, .str _ _, List.forall_mem_nil _⟩

end Legible

namespace Flag

/--
The draft of a flag survives its JSON exactly when the flag's keys are the
engine's, and its JSON survives the text when the numbers do.
-/
theorem ofJson_toJson_toDraft (flag : Flag) (key : String) :
    (Draft.reader.ofJson (flag.toDraft key).toJson = .ok (flag.toDraft key) ↔
      flag.HasEngineKeys) ∧
    ((∀ variant ∈ (flag.toDraft key).variants, variant.value.ReadsBack) →
      Json.parse (flag.toDraft key).toJson.compact =
        .ok (flag.toDraft key).toJson ∧
      Json.parse (flag.toDraft key).toJson.indented =
        .ok (flag.toDraft key).toJson) := by
  constructor
  · rw [Draft.ofJson_toJson, Except.ok.injEq]
    exact reread_toDraft_iff key
  · intro readsBack
    have legible : Json.Legible Json.depthLimit (flag.toDraft key).toJson :=
      @Draft.legible_toJson 123 _ readsBack
    exact ⟨Json.parse_compact legible, Json.parse_indented legible⟩

def variedFlag : Flag where
  state := .enabled
  defaultVariant := none
  variants := .ofEntries
    [("half", .num (.real ⟨false, 4503599627370496, 1021, by decide⟩)),
      ("minus", .num (.whole (-1) (by decide))), ("\"\n", .str "\t\x01"),
      ("none", .null), ("list", .arr [.bool true, .obj []])]
  targeting := some (Logic.call "if"
    [.obj [("<", .arr [.obj [("var", .str "age")], .null])], .str "half",
      .obj [("!", .obj [("in", .arr [.null, .arr [.str "a", .null]])])],
      .bool true,
      .obj [("sem_ver", .str "odd"), ("in_list", .null)], .str "\\",
      .obj [("last", .arr [])]])

theorem ofJson_toJson_toDraft_varied :
    variedFlag.HasEngineKeys ∧
      (∀ variant ∈ (variedFlag.toDraft "varied").variants,
        variant.value.ReadsBack) ∧
      Draft.reader.ofJson (variedFlag.toDraft "varied").toJson =
        .ok (variedFlag.toDraft "varied") ∧
      Json.parse (variedFlag.toDraft "varied").toJson.indented =
        .ok (variedFlag.toDraft "varied").toJson := by
  have keys : variedFlag.HasEngineKeys := by decide +kernel
  have numbers : ∀ variant ∈ (variedFlag.toDraft "varied").variants,
      variant.value.ReadsBack := by decide +kernel
  obtain ⟨read, texts⟩ := ofJson_toJson_toDraft variedFlag "varied"
  exact ⟨keys, numbers, read.mpr keys, (texts numbers).2⟩

def foreignFlag : Flag where
  state := .enabled
  defaultVariant := some "ratio"
  variants := .ofEntries
    [("ratio", .num (.real ⟨false, 6575177045277767, 1028, by decide⟩))]
  targeting := some (Logic.call "if"
    [Logic.call "in_list" [Logic.reference "os", .str "x"], .str "ratio"])

theorem ofJson_toJson_toDraft_foreign :
    Draft.reader.ofJson (foreignFlag.toDraft "f").toJson ≠
        .ok (foreignFlag.toDraft "f") ∧
      (∃ again,
        Draft.reader.ofJson (foreignFlag.toDraft "f").toJson = .ok again ∧
        again.toFlag ≠ (foreignFlag.toDraft "f").toFlag) ∧
      Json.parse (foreignFlag.toDraft "f").toJson.compact ≠
        .ok (foreignFlag.toDraft "f").toJson ∧
      Json.parse (foreignFlag.toDraft "f").toJson.indented ≠
        .ok (foreignFlag.toDraft "f").toJson := by
  have read := Draft.ofJson_toJson (foreignFlag.toDraft "f")
  refine ⟨?_, ⟨_, read, by decide +kernel⟩, ?_, ?_⟩
  · rw [read, ne_eq, Except.ok.injEq]
    decide +kernel
  · rw [ne_eq, Json.parse_eq_ok_iff, Json.toList_compact]
    decide +kernel
  · rw [ne_eq, Json.parse_eq_ok_iff, Json.toList_indented]
    decide +kernel

end Flag

end FeatureFlags
