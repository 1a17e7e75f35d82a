import FeatureFlags.Proofs.DefaultVariants
import FeatureFlags.Proofs.MissingSubjects

/-!
# Variants of the draft's type

Presets and new variants have values of the draft's type, so only an edit that
sets a value can bring in another.  Main statement: a run of edits that set
values of the type in force leads through drafts that compile, whose values are
all of one kind, and whose type is what their first value is judged to be.
-/

namespace FeatureFlags

def ValueType.kind : ValueType → Json.Kind
  | boolean => .boolean
  | string => .string
  | number => .number
  | object => .object

theorem ValueType.infer_of_kind {type : ValueType} {json : Json}
    (h : json.kind = type.kind) : infer (some json) = type := by
  cases type <;> cases json <;> simp_all [kind, Json.kind, infer]

namespace FormValue

/-- The values of a form of the type: the text of an object reads as one. -/
inductive OfType : ValueType → FormValue → Prop
  | bool (value : Bool) : OfType .boolean (.bool value)
  | text (text : String) : OfType .string (.text text)
  | number (value : Json.Number) : OfType .number (.number value)
  | object {text : String} {members : Entries Json}
      (reads : Json.parse text = .ok (.obj members)) :
      OfType .object (.text text)

theorem ofType_zero (type : ValueType) : OfType type (.zero type) := by
  cases type with
  | boolean => exact .bool false
  | string => exact .text ""
  | number => exact .number _
  | object =>
      have reads : Json.parse "\x7b\x7d" = .ok (.obj []) := by decide +kernel
      exact .object reads

end FormValue

theorem ValueType.ofType_preset (type : ValueType) :
    ∀ variant ∈ type.preset.variants, variant.value.OfType type := by
  cases type with
  | boolean =>
      simp only [preset, Draft.booleanVariants, List.forall_mem_cons]
      exact ⟨.bool true, .bool false, List.forall_mem_nil _⟩
  | string =>
      simp only [preset, List.forall_mem_cons]
      exact ⟨.text "foo", .text "bar", List.forall_mem_nil _⟩
  | number =>
      simp only [preset, List.forall_mem_cons]
      exact ⟨.number _, .number _, List.forall_mem_nil _⟩
  | object =>
      have foo : Json.parse "\x7b\"foo\":\"foo\"\x7d" =
          .ok (.obj [("foo", .str "foo")]) := by decide +kernel
      have bar : Json.parse "\x7b\"bar\":\"bar\"\x7d" =
          .ok (.obj [("bar", .str "bar")]) := by decide +kernel
      simp only [preset, List.forall_mem_cons]
      exact ⟨.object foo, .object bar, List.forall_mem_nil _⟩

namespace Draft

def Typed (draft : Draft) : Prop :=
  ∀ variant ∈ draft.variants, variant.value.OfType draft.type

/-- A value that the edit sets is of the type that the draft has then. -/
def RespectsType (draft : Draft) : Edit → Prop
  | .setVariantValue _ value => value.OfType draft.type
  | _ => True

variable {draft : Draft}

theorem typed_new (key : String) : (new key).Typed :=
  ValueType.boolean.ofType_preset

theorem typed_addVariant (typed : draft.Typed) : draft.addVariant.Typed := by
  intro variant hvariant
  rcases List.mem_append.mp hvariant with hvariant | hvariant
  · exact typed variant hvariant
  · rw [List.mem_singleton.mp hvariant]
    exact FormValue.ofType_zero draft.type

theorem forall_mem_modify {variants : List Variant} {change : Variant → Variant}
    {holds : Variant → Prop} (kept : ∀ variant ∈ variants, holds variant)
    (changed : ∀ variant ∈ variants, holds (change variant)) (index : Nat) :
    ∀ variant ∈ variants.modify index change, holds variant := by
  induction variants generalizing index with
  | nil => simp
  | cons first rest ih =>
      rw [List.forall_mem_cons] at kept changed
      cases index with
      | zero =>
          rw [List.modify_zero_cons, List.forall_mem_cons]
          exact ⟨changed.1, kept.2⟩
      | succ index =>
          rw [List.modify_succ_cons, List.forall_mem_cons]
          exact ⟨kept.1, ih kept.2 changed.2 index⟩

theorem typed_adoptSoleVariant_iff :
    draft.adoptSoleVariant.Typed ↔ draft.Typed := by
  unfold adoptSoleVariant
  split <;> rfl

theorem typed_changeVariant (typed : draft.Typed) (index : Nat)
    (change : Variant → Variant)
    (changed : ∀ variant ∈ draft.variants,
      (change variant).value.OfType draft.type) :
    ((draft.changeVariant? index change).getD draft).Typed := by
  unfold changeVariant?
  split
  · rw [Option.getD_some, typed_adoptSoleVariant_iff]
    exact forall_mem_modify typed changed index
  · exact typed

theorem typed_removeVariant (typed : draft.Typed) (index : Nat) :
    ((draft.removeVariant? index).getD draft).Typed := by
  have rest : ∀ variant ∈ draft.variants.eraseIdx index,
      variant.value.OfType draft.type := fun variant hvariant =>
    typed variant (List.mem_of_mem_eraseIdx hvariant)
  unfold removeVariant?
  split
  · exact typed
  · dsimp only
    split
    · exact rest
    · exact rest

theorem typed_apply {edit : Edit} (typed : draft.Typed)
    (respects : draft.RespectsType edit) : (draft.apply edit).Typed := by
  cases edit with
  | setType type => exact type.ofType_preset
  | addVariant => exact typed_addVariant typed
  | renameVariant index name =>
      exact typed_changeVariant typed index
        (fun variant => { variant with name }) typed
  | setVariantValue index value =>
      exact typed_changeVariant typed index
        (fun variant => { variant with value }) fun _ _ => respects
  | removeVariant index => exact typed_removeVariant typed index
  | addRule => exact typed
  | removeRule index =>
      change ((draft.removeRule? index).getD draft).Typed
      unfold removeRule?
      split <;> exact typed

end Draft

theorem Variant.exists_compile_of_ofType {type : ValueType} {variant : Variant}
    (h : variant.value.OfType type) :
    ∃ json, variant.compile type = .ok json ∧ json.kind = type.kind := by
  obtain ⟨name, value⟩ := variant
  cases h with
  | bool value => exact ⟨.bool value, rfl, rfl⟩
  | text text => exact ⟨.str text, rfl, rfl⟩
  | number value => exact ⟨.num value, rfl, rfl⟩
  | @object text members reads =>
      refine ⟨.obj members, ?_, rfl⟩
      simp [Variant.compile, reads, Except.mapError]

theorem exists_compileVariants_of_ofType {type : ValueType}
    {variants : List Variant}
    (h : ∀ variant ∈ variants, variant.value.OfType type) :
    ∃ values, compileVariants type variants = .ok values ∧
      ∀ entry ∈ values, entry.2.kind = type.kind := by
  induction variants with
  | nil => exact ⟨[], rfl, List.forall_mem_nil _⟩
  | cons variant rest ih =>
      rw [List.forall_mem_cons] at h
      obtain ⟨json, compiled, kind⟩ := Variant.exists_compile_of_ofType h.1
      obtain ⟨values, others, kinds⟩ := ih h.2
      refine ⟨(variant.name, json) :: values, ?_, ?_⟩
      · exact compileVariants_cons_eq_ok_iff.mpr
          ⟨json, values, compiled, others, rfl⟩
      · exact List.forall_mem_cons.mpr ⟨kind, kinds⟩

namespace Draft

variable {draft : Draft} {flag : Flag}

theorem exists_toFlag_of_typed (typed : draft.Typed) :
    ∃ flag, draft.toFlag = .ok flag ∧
      ∀ entry ∈ flag.variants.entries, entry.2.kind = draft.type.kind := by
  obtain ⟨values, compiled, kinds⟩ := exists_compileVariants_of_ofType typed
  refine ⟨_, by rw [toFlag, compiled, Except.map], ?_⟩
  intro entry hentry
  exact kinds entry (Entries.mem_of_mem_collapse hentry)

theorem inferredType_of_kinds (saved : draft.toFlag = .ok flag)
    (kinds : ∀ entry ∈ flag.variants.entries, entry.2.kind = draft.type.kind)
    (nonempty : draft.variants ≠ []) : flag.inferredType = draft.type := by
  have named : flag.firstVariantName? ≠ none := by
    rw [Flag.firstVariantName?_of_toFlag saved, firstVariantName?]
    simpa using nonempty
  cases first : flag.variants.first? with
  | none => simp [Flag.firstVariantName?, first] at named
  | some entry =>
      rw [Flag.inferredType, first]
      exact ValueType.infer_of_kind (kinds entry (List.mem_of_head? first))

end Draft

/-! ## Mixed kinds -/

namespace Violation

def ending (text : String) : List Char := text.toList.reverse.take 2

theorem ending_append (front : String) {back : String}
    (long : (ending back).length = 2) : ending (front ++ back) = ending back := by
  have bound : 2 ≤ back.toList.reverse.length := by
    rw [ending, List.length_take] at long
    omega
  rw [ending, String.toList_append, List.reverse_append,
    List.take_append_of_le_length bound]
  rfl

theorem ending_append_ne (front : String) {back : String} {last : List Char}
    (h : (ending back).length = 2 ∧ ending back ≠ last) :
    ending (front ++ back) ≠ last := by
  rw [ending_append front h.1]
  exact h.2

theorem ending_append_quote_ne (front : String) {last : List Char}
    (h : last.head? ≠ some '\'') : ending (front ++ "'") ≠ last := by
  rintro rfl
  simp [ending] at h

theorem exists_eq_mixedKinds_of_message {violation : Violation}
    {flag variant : String} {expected found : Json.Kind}
    (same : violation.message =
      (mixedKinds flag variant expected found).message) :
    ∃ flag variant expected found,
      violation = mixedKinds flag variant expected found := by
  have last : ending violation.message = ['g', 'a'] := by
    rw [same, message, ending_append _ (by decide +kernel)]
    decide +kernel
  cases violation with
  | mixedKinds => exact ⟨_, _, _, _, rfl⟩
  | rootNotObject | missingFlags | flagsNotObject | emptyFlagKey =>
      exact absurd last (by decide +kernel)
  | missingField | unknownTarget | unsupportedComparator =>
      exact absurd last (ending_append_quote_ne _ (by decide))
  | wrongKind flag field expected found =>
      cases found <;>
        exact absurd last (ending_append_ne _ (by decide +kernel))
  | _ => exact absurd last (ending_append_ne _ (by decide +kernel))

end Violation

section Kinds

variable {draft : Draft} {variants : Entries Json} {flag variant : String}
  {expected found : Json.Kind}

theorem Condition.mixedKinds_notMem_findings (condition : Condition)
    (key : String) (rule : Nat) :
    .mixedKinds flag variant expected found ∉ condition.findings key rule := by
  unfold findings
  split
  · simp
  · split <;> simp

theorem Draft.mixedKinds_notMem_targetingFindings (names : List String) :
    .mixedKinds flag variant expected found ∉
      draft.targetingFindings names := by
  simp [targetingFindings, Rule.findings, Condition.mixedKinds_notMem_findings]

theorem Draft.mixedKinds_notMem_findings {kind : Json.Kind}
    (uniform : ∀ entry ∈ variants, entry.2.kind = kind) :
    .mixedKinds flag variant expected found ∉ draft.findings variants := by
  have values : .mixedKinds flag variant expected found ∉
      draft.variantFindings variants := by
    unfold variantFindings
    split
    · simp
    · rename_i first head
      have same := uniform first (List.mem_of_head? head)
      intro mixed
      obtain ⟨entry, hentry, mixed⟩ := List.mem_flatMap.mp mixed
      simp [same, uniform entry hentry] at mixed
  have targeting :=
    @mixedKinds_notMem_targetingFindings draft flag variant expected found
      variants.names
  unfold findings
  split <;> simp [values, targeting]

end Kinds

namespace Draft

/--
On the way of a run that sets only values of the type in force, every draft
compiles, its report shows no mixed kinds, and what it compiles to opens with
the draft's type where there is a variant.
-/
theorem typed_run_compiles {key : String} {edits : List Edit}
    (respects : (new key).Throughout RespectsType edits) (count : Nat) :
    let draft := (new key).run (edits.take count)
    ∃ flag, draft.toFlag = .ok flag ∧
      (∀ name variant expected found,
        ¬ draft.validate.Shows (.mixedKinds name variant expected found)) ∧
      (draft.variants ≠ [] → ∀ name, (flag.toDraft name).type = draft.type) := by
  intro draft
  have typed : draft.Typed :=
    Throughout.holds typed_apply (typed_new key) respects count
  obtain ⟨flag, saved, kinds⟩ := exists_toFlag_of_typed typed
  refine ⟨flag, saved, ?_, ?_⟩
  · intro name variant expected found shown
    rw [Report.Shows, validate_of_toFlag saved, Report.ofViolations,
      List.mem_map] at shown
    obtain ⟨violation, mixed, same⟩ := shown
    obtain ⟨_, _, _, _, rfl⟩ := Violation.exists_eq_mixedKinds_of_message same
    exact mixedKinds_notMem_findings kinds mixed
  · intro nonempty name
    exact inferredType_of_kinds saved kinds nonempty

def typedEdits : List Edit :=
  [.setVariantValue 1 (.bool true), .renameVariant 1 "true", .setType .object,
    .setVariantValue 0 (.text " \x7b \"a\" : [1.5, \x7b\x7d] \x7d"), .addVariant,
    .renameVariant 2 "foo", .removeVariant 1, .addRule, .removeRule 0,
    .setVariantValue 7 (.text "\x7b\x7d"), .setType .number]

theorem typed_run_compiles_retyped :
    (new "f").Throughout RespectsType typedEdits ∧
      let draft := (new "f").run (typedEdits.take 10)
      draft.variants =
          [⟨"foo", .text " \x7b \"a\" : [1.5, \x7b\x7d] \x7d"⟩,
            ⟨"foo", .text "\x7b\x7d"⟩] ∧
        ∃ flag, draft.toFlag = .ok flag ∧
          ¬ draft.validate.Shows (.mixedKinds "f" "foo" .object .array) ∧
          (flag.toDraft "g").type = .object := by
  have respects : (new "f").Throughout RespectsType typedEdits := by
    have nested : Json.parse " \x7b \"a\" : [1.5, \x7b\x7d] \x7d" = .ok (.obj
        [("a", .arr [.num (.real ⟨false, 6755399441055744, 1022, by decide⟩),
          .obj []])]) := by decide +kernel
    have empty : Json.parse "\x7b\x7d" = .ok (.obj []) := by decide +kernel
    exact ⟨.bool true, trivial, trivial, .object nested, trivial, trivial,
      trivial, trivial, trivial, .object empty, trivial, trivial⟩
  obtain ⟨flag, saved, uniform, judged⟩ := typed_run_compiles respects 10
  exact ⟨respects, by decide +kernel, flag, saved, uniform _ _ _ _,
    judged (by decide +kernel) "g"⟩

end Draft

end FeatureFlags
