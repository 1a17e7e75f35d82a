import FeatureFlags.Logic.Condition
import FeatureFlags.Proofs.CommaLists

/-!
# Conditions there and back

A logic tree that is read as a condition and written again comes back unchanged
just when the form can express it.  `Expressible` lists the shapes of those
trees.  Whatever is read, the tree written from it has one of these shapes, so
that a second reading loses nothing more.
-/

namespace FeatureFlags

/-- An unknown operator that is not written like a negation or a comparison. -/
def Operator.Regular (operator : Operator) : Prop :=
  operator ≠ .other Logic.notKey ∧ operator ≠ .other Logic.semVerKey

theorem Operator.regular_ofName {name : String}
    (negates : Operator.ofName name ≠ .other Logic.notKey) :
    (Operator.ofName name).Regular := by
  refine ⟨negates, ?_⟩
  intro compares
  have := congrArg Operator.name compares
  rw [name_ofName] at this
  simp [this, Operator.name, Logic.semVerKey, ofName] at compares

theorem Operator.exists_ofName_iff {operator : Operator} :
    (∃ name, operator = .ofName name) ↔ .ofName operator.name = operator := by
  constructor
  · rintro ⟨name, rfl⟩
    rw [name_ofName]
  · intro h
    exact ⟨operator.name, h.symm⟩

namespace Logic

/-- The trees that the form can express, shape by shape. -/
inductive Expressible : Json → Prop
  | call (key path value : String)
      (negates : key ≠ notKey) (compares : key ≠ semVerKey) :
      Expressible (call key [reference path, .str value])
  | version (path comparator value : String) :
      Expressible
        (call semVerKey [reference path, .str comparator, .str value])
  | list (path : String) {values : List String}
      (clean : Text.CleanValues values) :
      Expressible (membership (reference path) (.ofTexts values))
  | notText (path text : String) :
      Expressible (negation (membership (reference path) (.str text)))
  | notList (path : String) {values : List String}
      (clean : Text.CleanValues values) :
      Expressible (negation (membership (reference path) (.ofTexts values)))

@[simp] theorem operandText_str (text : String) :
    operandText (.str text) = text := by
  simp [operandText]

@[simp] theorem referencePath?_reference (path : String) :
    referencePath? (reference path) = some path := by
  simp [referencePath?, reference, single, Json.member?, Entries.value?]

@[simp] theorem subjectPath_reference (path : String) (operands : List Json) :
    subjectPath (.arr (reference path :: operands)) = path := by
  simp [subjectPath, Json.item?]

@[simp] theorem operandAt_one (subject : Json) (text : String)
    (operands : List Json) :
    operandAt 1 (.arr (subject :: .str text :: operands)) = text := by
  simp [operandAt, Json.item?]

@[simp] theorem operandAt_two (subject second : Json) (text : String) :
    operandAt 2 (.arr [subject, second, .str text]) = text := by
  simp [operandAt, Json.item?]

@[simp] theorem operandText_comp_str : operandText ∘ Json.str = id :=
  funext operandText_str

theorem regular_of_name {operator : Operator}
    (negates : operator.name ≠ notKey) (compares : operator.name ≠ semVerKey) :
    operator.Regular :=
  ⟨fun same => negates (by rw [same]; rfl),
    fun same => compares (by rw [same]; rfl)⟩

theorem regular_recoverMembership {list text : Operator} (hlist : list.Regular)
    (htext : text.Regular) (operands : Json) :
    (recoverMembership list text operands).operator.Regular := by
  unfold recoverMembership
  split
  · exact hlist
  · exact htext

theorem regular_recoverCall {key : String} (negates : key ≠ notKey)
    (operands : Json) : (recoverCall key operands).operator.Regular := by
  unfold recoverCall
  split
  · exact ⟨by simp [Condition.version], by simp [Condition.version]⟩
  · rename_i compares
    split
    · exact regular_recoverMembership ⟨by simp, by simp⟩ ⟨by simp, by simp⟩ _
    · exact regular_of_name (by rwa [Operator.name_ofKey])
        (by rwa [Operator.name_ofKey])

theorem regular_blank : Condition.blank.operator.Regular :=
  ⟨by simp [Condition.blank], by simp [Condition.blank]⟩

theorem regular_toCondition (tree : Json) :
    (toCondition tree).operator.Regular := by
  unfold toCondition recover
  split
  · exact regular_blank
  · split
    · unfold recoverNegation
      split
      · exact regular_blank
      · split
        · exact regular_recoverMembership ⟨by simp, by simp⟩
            ⟨by simp, by simp⟩ _
        · exact regular_blank
    · rename_i negates
      exact regular_recoverCall negates _

/-! ## Writing what was read -/

theorem ofCondition_ofKey (name key comparator value : String) :
    ofCondition ⟨name, .ofKey key, comparator, value⟩ =
      call key [reference name, .str value] := by
  unfold ofCondition Operator.ofKey
  split <;> simp_all [Operator.name]

theorem expressible_ofCondition {condition : Condition}
    (h : condition.operator.Regular) : Expressible (ofCondition condition) := by
  obtain ⟨name, operator, comparator, value⟩ := condition
  cases operator with
  | semVer => exact .version name comparator value
  | inList => exact .list name (Text.cleanValues_values value)
  | notInList => exact .notList name (Text.cleanValues_values value)
  | inString => exact .call inKey name value (by decide) (by decide)
  | notInString => exact .notText name value
  | endsWith => exact .call "ends_with" name value (by decide) (by decide)
  | startsWith => exact .call "starts_with" name value (by decide) (by decide)
  | equals => exact .call "==" name value (by decide) (by decide)
  | other key =>
      exact .call key name value (fun same => h.1 (congrArg Operator.other same))
        (fun same => h.2 (congrArg Operator.other same))

theorem toCondition_call {key : String} (h : key ≠ notKey)
    (operands : List Json) :
    toCondition (call key operands) = recoverCall key (.arr operands) := by
  simp [toCondition, recover, call, single, firstMember?, h,
    Recovered.toCondition]

theorem toCondition_negation (operands : List Json) :
    toCondition (negation (call inKey operands)) =
      recoverMembership .notInList .notInString (.arr operands) := by
  simp [toCondition, recover, recoverNegation, negation, call, single,
    firstMember?, Recovered.toCondition]

theorem toCondition_version (path comparator value : String) :
    toCondition
        (call semVerKey [reference path, .str comparator, .str value]) =
      .version path comparator value := by
  rw [toCondition_call (by decide), recoverCall, if_pos rfl]
  simp [Json.item?]

theorem toCondition_list (path : String) (values : List String) :
    toCondition (membership (reference path) (.ofTexts values)) =
      { name := path, operator := .inList,
        value := Text.join ", " values } := by
  rw [membership, toCondition_call (by decide), recoverCall,
    if_neg (by decide), if_pos rfl]
  simp [recoverMembership, Json.item?, Json.ofTexts]

theorem toCondition_text (path text : String) :
    toCondition (membership (reference path) (.str text)) =
      { name := path, operator := .inString, value := text } := by
  rw [membership, toCondition_call (by decide), recoverCall,
    if_neg (by decide), if_pos rfl]
  simp [recoverMembership, Json.item?]

theorem toCondition_notList (path : String) (values : List String) :
    toCondition (negation (membership (reference path) (.ofTexts values))) =
      { name := path, operator := .notInList,
        value := Text.join ", " values } := by
  rw [membership, toCondition_negation]
  simp [recoverMembership, Json.item?, Json.ofTexts]

theorem toCondition_notText (path text : String) :
    toCondition (negation (membership (reference path) (.str text))) =
      { name := path, operator := .notInString, value := text } := by
  rw [membership, toCondition_negation]
  simp [recoverMembership, Json.item?]

theorem toCondition_key {key : String} (negates : key ≠ notKey)
    (compares : key ≠ semVerKey) (includes : key ≠ inKey)
    (path value : String) :
    toCondition (call key [reference path, .str value]) =
      { name := path, operator := .ofKey key, value } := by
  rw [toCondition_call negates, recoverCall, if_neg compares,
    if_neg includes]
  simp

theorem toCondition_call_notKey (operands : List Json) :
    toCondition (call notKey operands) = .blank := by
  simp [toCondition, recover, recoverNegation, call, single, firstMember?,
    Recovered.toCondition]

theorem ofCondition_toCondition {tree : Json} (h : Expressible tree) :
    ofCondition (toCondition tree) = tree := by
  cases h with
  | call key path value negates compares =>
      by_cases includes : key = inKey
      · subst includes
        exact congrArg ofCondition (toCondition_text path value)
      · rw [toCondition_key negates compares includes, ofCondition_ofKey]
  | version path comparator value =>
      rw [toCondition_version]
      rfl
  | list path clean =>
      rw [toCondition_list]
      simp [ofCondition, Condition.listValues, Text.values_join clean]
  | notText path text =>
      rw [toCondition_notText]
      rfl
  | notList path clean =>
      rw [toCondition_notList]
      simp [ofCondition, Condition.listValues, Text.values_join clean]

theorem ofCondition_toCondition_iff {tree : Json} :
    ofCondition (toCondition tree) = tree ↔ Expressible tree :=
  ⟨fun h => h ▸ expressible_ofCondition (regular_toCondition tree),
    ofCondition_toCondition⟩

end Logic

end FeatureFlags
