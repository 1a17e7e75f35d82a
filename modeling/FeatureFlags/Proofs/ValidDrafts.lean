import FeatureFlags.Proofs.Findings
import FeatureFlags.Proofs.Resaving

/-!
# Valid drafts are kept

A draft without findings compiles to a lossless flag.  Main statement: a valid
draft can be saved and opened again, the opened draft is valid too, and saving
it gives the same flag.
-/

namespace FeatureFlags

theorem Condition.negates_of_findings_eq_nil {condition : Condition}
    {key : String} {rule : Nat} (h : condition.findings key rule = []) :
    condition.operator ≠ .other "!" := by
  intro negates
  rw [Condition.findings, if_pos negates] at h
  simp at h

namespace Draft

variable {draft : Draft} {variants : Entries Json}

theorem variantFindings_eq_nil_iff :
    draft.variantFindings variants = [] ↔
      ∃ first, variants.head? = some first ∧
        ∀ variant ∈ variants,
          variant.1 ≠ "" ∧ variant.2.kind = first.2.kind := by
  unfold variantFindings
  cases variants with
  | nil => simp
  | cons first rest =>
      simp only [List.head?_cons, List.flatMap_eq_nil_iff,
        List.append_eq_nil_iff, foundIf_eq_nil_iff, not_not]
      constructor
      · intro h
        exact ⟨first, rfl, h⟩
      · rintro ⟨other, same, h⟩
        exact Option.some.inj same ▸ h

theorem targetingFindings_eq_nil_iff {names : List String} :
    draft.targetingFindings names = [] ↔
      draft.rules ≠ [] ∧
        (∀ numbered ∈ draft.rules.zipIdx 1,
          numbered.1.findings draft.key names numbered.2 = []) ∧
        (draft.hasDefaultRule = true → draft.defaultRule ∈ names) := by
  simp only [targetingFindings, List.append_eq_nil_iff, foundIf_eq_nil_iff,
    List.flatMap_eq_nil_iff]
  -- with or without a fallback, one of the two length findings shows no rules
  have rules : ¬ (draft.rules = [] ∧ draft.hasDefaultRule = false) ∧
      ¬ (draft.rules = [] ∧ draft.hasDefaultRule = true) ↔
        draft.rules ≠ [] := by
    cases draft.hasDefaultRule <;> simp
  rw [rules, and_assoc, not_and, not_not]

theorem negates_of_targetingFindings_eq_nil {names : List String}
    (h : draft.targetingFindings names = []) :
    ∀ rule ∈ draft.rules, rule.condition.operator ≠ .other "!" := by
  intro rule hrule
  obtain ⟨-, clean, -⟩ := targetingFindings_eq_nil_iff.mp h
  rw [← List.zipIdx_map_fst 1 draft.rules] at hrule
  obtain ⟨numbered, hnumbered, rfl⟩ := List.mem_map.mp hrule
  have := clean numbered hnumbered
  rw [Rule.findings, List.append_eq_nil_iff] at this
  exact Condition.negates_of_findings_eq_nil this.1

/-- Every operator of the draft is the one that the form has for a name. -/
def HasFormOperators (draft : Draft) : Prop :=
  ∀ rule ∈ draft.rules, ∃ name, rule.condition.operator = .ofName name

instance (draft : Draft) : Decidable draft.HasFormOperators :=
  decidable_of_iff
    (∀ rule ∈ draft.rules,
      .ofName rule.condition.operator.name = rule.condition.operator)
    (forall₂_congr fun _ _ => Operator.exists_ofName_iff.symm)

def Readable (draft : Draft) : Prop :=
  ∀ flag, draft.toFlag = .ok flag → flag.Readable

instance (draft : Draft) : Decidable draft.Readable :=
  match h : draft.toFlag with
  | .ok flag => decidable_of_iff flag.Readable (by simp [Readable, h])
  | .error _ => isTrue (by simp [Readable, h])

theorem lossless_of_findings_eq_nil {draft : Draft} {flag : Flag}
    (operators : draft.HasFormOperators) (saved : draft.toFlag = .ok flag)
    (h : draft.findings flag.variants.entries = []) : flag.Lossless := by
  obtain ⟨values, -, rfl⟩ := toFlag_eq_ok saved
  simp only [findings, List.append_eq_nil_iff, foundIf_eq_nil_iff] at h
  obtain ⟨⟨⟨-, variants⟩, default⟩, targeting⟩ := h
  obtain ⟨first, hfirst, clean⟩ := variantFindings_eq_nil_iff.mp variants
  constructor
  · left
    refine ⟨draft.defaultVariant, ?_, rfl⟩
    obtain ⟨variant, hvariant, hname⟩ :=
      List.mem_map.mp (not_not.mp default)
    exact hname ▸ (clean variant hvariant).1
  · by_cases compound : first.2.IsCompound
    · exact .inl ⟨first, hfirst, compound⟩
    · right
      intro variant hvariant
      rwa [Json.IsCompound, (clean variant hvariant).2]
  · by_cases targeted : draft.hasTargeting
    · rw [if_pos targeted] at targeting
      obtain ⟨rules, -, -⟩ := targetingFindings_eq_nil_iff.mp targeting
      have negates := negates_of_targetingFindings_eq_nil targeting
      apply Flag.keepsTargeting_of_chain rules
      · intro rule hrule
        obtain ⟨name, hname⟩ := operators rule hrule
        rw [hname]
        exact Operator.regular_ofName (hname ▸ negates rule hrule)
      · simp only [targeting?, targeted, if_true]
        rfl
    · exact .inl (by simp [targeting?, targeted])

theorem toFlag_of_valid {draft : Draft} (h : draft.validate.valid = true) :
    ∃ flag, draft.toFlag = .ok flag ∧
      Validation.draftViolations draft (.single draft.key flag) = [] := by
  unfold validate compile at h
  cases hflag : draft.toFlag with
  | error error => simp [hflag, Except.map, Report.failure] at h
  | ok flag =>
      rw [hflag] at h
      exact ⟨flag, rfl, Report.valid_ofViolations_iff.mp h⟩

theorem duplicateViolations_toDraft (flag : Flag) (key : String) :
    Validation.duplicateViolations (flag.toDraft key) = [] := by
  have names : (flag.toDraft key).variants.map Variant.name =
      flag.variants.entries.names := by
    simp [Flag.toDraft, Flag.draftVariants, Entries.names]
  rw [Validation.duplicateViolations, names,
    Validation.repeatedNames_of_nodup flag.variants.distinct (by simp), List.map_nil]

/-- A draft that is valid is kept, and valid again, when it is saved and opened. -/
theorem reopened_valid {draft : Draft} (operators : draft.HasFormOperators)
    (valid : draft.validate.valid = true) (readable : draft.Readable) :
    ∃ flag, draft.toFlag = .ok flag ∧
      (flag.toDraft draft.key).validate.valid = true ∧
      (flag.toDraft draft.key).toFlag = .ok flag := by
  obtain ⟨flag, saved, clean⟩ := toFlag_of_valid valid
  have lossless := lossless_of_findings_eq_nil operators saved
    (Validation.draftViolations_eq_findings saved ▸ clean)
  have resaved := Flag.toFlag_toDraft_of_lossless lossless
    (fun _ => readable flag saved) draft.key
  refine ⟨flag, saved, ?_, resaved⟩
  rw [validate, compile, resaved, Except.map]
  apply Report.valid_ofViolations_iff.mpr
  rw [Validation.draftViolations, duplicateViolations_toDraft,
    List.nil_append]
  exact (List.append_eq_nil_iff.mp clean).2

def themeDraft : Draft where
  key := "theme"
  description := none
  enabled := true
  type := .object
  variants :=
    [⟨"dark", .text "\x7b \"bg\" : [0, 1.5e3, null] \x7d"⟩,
      ⟨"light", .text "\x7b\x7d"⟩]
  defaultVariant := "light"
  hasTargeting := true
  rules :=
    [⟨{ name := "email", operator := .inList, value := " a@x,b@x ," }, "dark"⟩,
      ⟨{ name := "os", operator := .other "in", value := "a, b" }, "light"⟩,
      ⟨.version "app" "!=" "1.0", "dark"⟩,
      ⟨{ name := "land", operator := .notInList, value := " " }, "dark"⟩]
  hasDefaultRule := true
  defaultRule := "dark"

theorem reopened_valid_theme :
    themeDraft.HasFormOperators ∧ themeDraft.validate.valid = true ∧
      themeDraft.Readable ∧
      ∃ flag, themeDraft.toFlag = .ok flag ∧
        (flag.toDraft "theme").validate.valid = true ∧
        (flag.toDraft "theme").toFlag = .ok flag := by
  have operators : themeDraft.HasFormOperators := by decide +kernel
  have valid : themeDraft.validate.valid = true := by decide +kernel
  have readable : themeDraft.Readable := by decide +kernel
  exact ⟨operators, valid, readable, reopened_valid operators valid readable⟩

end Draft

end FeatureFlags
