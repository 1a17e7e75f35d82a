import FeatureFlags.Proofs.Tables
import FeatureFlags.Proofs.WellFormed

/-!
# Violations by their place

A violation of a flag has a place: the flag and the part of it that was checked.
Each part has a check of its own, so what is found at a place is what that check
finds, in whatever state the rest of the document is.  Main statement: the
violations of a document are those of its flags taken alone, and every reference
to a variant is reported on its own merits.
-/

namespace FeatureFlags

open Logic

inductive Part
  | key
  | whole
  | field (name : String)
  | condition (rule : Nat)
  | target (rule : Nat)
  | fallback
  deriving DecidableEq

structure Place where
  flag : String
  part : Part
  deriving DecidableEq

def Violation.place? : Violation → Option Place
  | rootNotObject => none
  | missingFlags => none
  | flagsNotObject => none
  | emptyFlagKey => some ⟨"", .key⟩
  | flagNotObject flag => some ⟨flag, .whole⟩
  | missingField flag field => some ⟨flag, .field field⟩
  | wrongKind flag field _ _ => some ⟨flag, .field field⟩
  | invalidState flag _ => some ⟨flag, .field "state"⟩
  | noVariants flag => some ⟨flag, .field "variants"⟩
  | emptyVariantName flag => some ⟨flag, .field "variants"⟩
  | mixedKinds flag _ _ _ => some ⟨flag, .field "variants"⟩
  | duplicateVariant flag _ => some ⟨flag, .field "variants"⟩
  | unknownDefault flag _ => some ⟨flag, .field "defaultVariant"⟩
  | emptyChain flag => some ⟨flag, .field "targeting.if"⟩
  | fallbackOnly flag => some ⟨flag, .field "targeting.if"⟩
  | malformedCondition flag rule => some ⟨flag, .condition rule⟩
  | operandsNotArray flag rule _ => some ⟨flag, .condition rule⟩
  | invalidReference flag rule => some ⟨flag, .condition rule⟩
  | unsupportedComparator flag rule _ => some ⟨flag, .condition rule⟩
  | targetNotString flag rule => some ⟨flag, .target rule⟩
  | unknownTarget flag rule _ => some ⟨flag, .target rule⟩
  | fallbackNotString flag => some ⟨flag, .fallback⟩
  | unknownFallback flag _ => some ⟨flag, .fallback⟩

namespace Validation

def about (place : Place) (found : List Violation) : List Violation :=
  found.filter fun violation => violation.place? = some place

def AllAbout (place : Place) (found : List Violation) : Prop :=
  ∀ violation ∈ found, violation.place? = some place

/-- The violation is found once where the condition is met, and else never. -/
def FoundOnceIff (found : List Violation) (violation : Violation)
    (condition : Prop) : Prop :=
  (condition → found.count violation = 1) ∧
    (¬ condition → violation ∉ found)

section About

variable {place other : Place} {found : List Violation}

@[simp] theorem about_append (front back : List Violation) :
    about place (front ++ back) = about place front ++ about place back :=
  List.filter_append front back

theorem about_eq_nil
    (h : ∀ violation ∈ found, violation.place? ≠ some place) :
    about place found = [] := by
  unfold about
  rw [List.filter_eq_nil_iff]
  intro violation hviolation
  simpa using h violation hviolation

theorem AllAbout.about_self (h : AllAbout place found) :
    about place found = found := by
  unfold about
  rw [List.filter_eq_self]
  intro violation hviolation
  simpa using h violation hviolation

theorem AllAbout.about_of_ne (h : AllAbout other found) (differs : other ≠ place) :
    about place found = [] := by
  apply about_eq_nil
  intro violation hviolation same
  rw [h violation hviolation, Option.some.injEq] at same
  exact differs same

theorem foundOnceIff_about_iff {violation : Violation} {condition : Prop}
    (placed : violation.place? = some place) :
    FoundOnceIff (about place found) violation condition ↔
      FoundOnceIff found violation condition := by
  have count : (about place found).count violation = found.count violation :=
    List.count_filter (decide_eq_true placed)
  unfold FoundOnceIff
  rw [count, about, List.mem_filter]
  simp [placed]

theorem FoundOnceIff.of_about {others : List Violation}
    {violation : Violation} {condition : Prop}
    (h : FoundOnceIff others violation condition)
    (placed : violation.place? = some place)
    (same : about place found = about place others) :
    FoundOnceIff found violation condition := by
  rw [← foundOnceIff_about_iff placed, same]
  exact (foundOnceIff_about_iff placed).mpr h

end About

/-! ## Places of checks -/

section Checks

variable {flag : String} {rule : Nat} {variants : Option (Entries Json)}

theorem allAbout_keyViolations (key : String) :
    AllAbout ⟨key, .key⟩ (keyViolations key) := by
  unfold AllAbout keyViolations
  split
  · rename_i empty
    simp [empty, Violation.place?]
  · simp

theorem allAbout_stateViolations (fields : Entries Json) :
    AllAbout ⟨flag, .field "state"⟩ (stateViolations flag fields) := by
  unfold AllAbout stateViolations
  split
  · simp [Violation.place?]
  · split <;> simp [Violation.place?]
  · simp [Violation.place?]

theorem allAbout_variantsViolations (fields : Entries Json) :
    AllAbout ⟨flag, .field "variants"⟩ (variantsViolations flag fields) := by
  unfold AllAbout variantsViolations
  split
  · simp [Violation.place?]
  · simp [Violation.place?]
  · intro violation found
    obtain ⟨variant, -, found⟩ := List.mem_flatMap.mp found
    unfold variantViolations at found
    grind [Violation.place?]
  · simp [Violation.place?]

theorem allAbout_defaultViolations (fields : Entries Json) :
    AllAbout ⟨flag, .field "defaultVariant"⟩ (defaultViolations flag fields) := by
  unfold AllAbout defaultViolations
  split
  · simp [Violation.place?]
  · split <;> simp [Violation.place?]
  · simp [Violation.place?]

theorem allAbout_conditionViolations (condition : Json) :
    AllAbout ⟨flag, .condition rule⟩
      (conditionViolations flag rule condition) := by
  induction condition using conditionViolations.induct with
  | case1 content _ ih =>
      have step := conditionViolations_negation flag rule content
      rw [negation, single] at step
      rwa [step]
  | case2 operator negates operands =>
      rw [conditionViolations, if_neg negates]
      intro violation found
      rcases List.mem_append.mp found with found | found
      · obtain ⟨operand, -, found⟩ := List.mem_filterMap.mp found
        grind [Violation.place?]
      · unfold comparatorViolations at found
        grind [Violation.place?]
  | case3 operator content negates noArray =>
      rw [conditionViolations, if_neg negates]
      · simp [AllAbout, Violation.place?]
      · exact noArray
  | case4 condition noOperator =>
      rw [conditionViolations]
      · simp [AllAbout, Violation.place?]
      · exact noOperator

theorem allAbout_targetViolations (target : Json) :
    AllAbout ⟨flag, .target rule⟩
      (targetViolations flag rule variants target) := by
  unfold AllAbout targetViolations
  split
  · split <;> simp [Violation.place?]
  · simp [Violation.place?]

theorem allAbout_fallbackViolations (fallback : Option Json) :
    AllAbout ⟨flag, .fallback⟩
      (fallbackViolations flag variants fallback) := by
  unfold AllAbout fallbackViolations
  split
  · simp
  · split <;> simp [Violation.place?]
  · simp [Violation.place?]

theorem allAbout_lengthViolations (items : List Json) :
    AllAbout ⟨flag, .field "targeting.if"⟩ (lengthViolations flag items) := by
  unfold AllAbout lengthViolations
  split <;> simp [Violation.place?]

end Checks

section Rules

variable {flag : String} {variants : Option (Entries Json)}

theorem exists_place_of_mem_ruleViolations {number : Nat}
    {pairs : List (Json × Json)} {violation : Violation}
    (found : violation ∈ ruleViolations flag variants number pairs) :
    ∃ rule, number ≤ rule ∧
      (violation.place? = some ⟨flag, .condition rule⟩ ∨
        violation.place? = some ⟨flag, .target rule⟩) := by
  induction pairs generalizing number with
  | nil => simp [ruleViolations] at found
  | cons pair pairs ih =>
      simp only [ruleViolations, List.mem_append] at found
      rcases found with (found | found) | found
      · exact ⟨number, Nat.le_refl _,
          .inl (allAbout_conditionViolations pair.1 violation found)⟩
      · exact ⟨number, Nat.le_refl _,
          .inr (allAbout_targetViolations pair.2 violation found)⟩
      · obtain ⟨rule, later, place⟩ := ih found
        exact ⟨rule, Nat.le_of_succ_le later, place⟩

theorem about_target_ruleViolations (number index : Nat)
    (pairs : List (Json × Json)) :
    about ⟨flag, .target (number + index)⟩
        (ruleViolations flag variants number pairs) =
      (pairs[index]?.map fun pair =>
        targetViolations flag (number + index) variants pair.2).getD [] := by
  -- the rule is the first of those that are left, or it is among the others
  induction pairs generalizing number index with
  | nil => simp [ruleViolations, about]
  | cons pair pairs ih =>
      have condition : about ⟨flag, .target (number + index)⟩
          (conditionViolations flag number pair.1) = [] :=
        (allAbout_conditionViolations pair.1).about_of_ne (by simp)
      rw [ruleViolations, about_append, about_append, condition,
        List.nil_append]
      cases index with
      | zero =>
          have others : about ⟨flag, .target number⟩
              (ruleViolations flag variants (number + 1) pairs) = [] := by
            apply about_eq_nil
            intro violation found same
            obtain ⟨rule, later, place | place⟩ :=
              exists_place_of_mem_ruleViolations found
            · simp [place] at same
            · rw [place, Option.some.injEq, Place.mk.injEq, Part.target.injEq]
                at same
              omega
          simp only [Nat.add_zero, others, List.append_nil]
          exact (allAbout_targetViolations pair.2).about_self
      | succ index =>
          have earlier : about ⟨flag, .target (number + (index + 1))⟩
              (targetViolations flag number variants pair.2) = [] :=
            (allAbout_targetViolations pair.2).about_of_ne (by simp)
          have place : number + (index + 1) = number + 1 + index := by omega
          rw [earlier, List.nil_append, place, ih]
          rfl

theorem about_fallback_ruleViolations (number : Nat)
    (pairs : List (Json × Json)) :
    about ⟨flag, .fallback⟩ (ruleViolations flag variants number pairs) =
      [] := by
  apply about_eq_nil
  intro violation found same
  obtain ⟨rule, -, place | place⟩ := exists_place_of_mem_ruleViolations found <;>
    simp [place] at same

theorem about_target_chainViolations (items : List Json) (index : Nat) :
    about ⟨flag, .target (index + 1)⟩ (chainViolations flag variants items) =
      (items[2 * index + 1]?.map
        (targetViolations flag (index + 1) variants)).getD [] := by
  have length : about ⟨flag, .target (index + 1)⟩
      (lengthViolations flag items) = [] :=
    (allAbout_lengthViolations items).about_of_ne (by simp)
  have fallback : about ⟨flag, .target (index + 1)⟩
      (fallbackViolations flag variants (split items).fallback) = [] :=
    (allAbout_fallbackViolations _).about_of_ne (by simp)
  have rules := @about_target_ruleViolations flag variants 1 index
    (split items).pairs
  rw [Nat.add_comm 1 index] at rules
  rw [chainViolations, about_append, about_append, length, fallback, rules,
    List.nil_append, List.append_nil, getElem?_pairs_split]
  cases target : items[2 * index + 1]? with
  | none => simp
  | some item =>
      -- the condition stands before the target
      have bound := (List.getElem?_eq_some_iff.mp target).1
      have before : 2 * index < items.length := by omega
      simp [List.getElem?_eq_getElem before]

theorem about_fallback_chainViolations (items : List Json) :
    about ⟨flag, .fallback⟩ (chainViolations flag variants items) =
      fallbackViolations flag variants (split items).fallback := by
  have length : about ⟨flag, .fallback⟩ (lengthViolations flag items) = [] :=
    (allAbout_lengthViolations items).about_of_ne (by simp)
  rw [chainViolations, about_append, about_append, length,
    about_fallback_ruleViolations,
    (allAbout_fallbackViolations _).about_self, List.nil_append,
    List.nil_append]

end Rules

inductive OfTargeting : Part → Prop
  | tree : OfTargeting (.field "targeting")
  | chain : OfTargeting (.field "targeting.if")
  | condition (rule : Nat) : OfTargeting (.condition rule)
  | target (rule : Nat) : OfTargeting (.target rule)
  | fallback : OfTargeting .fallback

section Flags

variable {key : String} {fields : Entries Json} {part : Part}

theorem exists_place_of_mem_chainViolations {flag : String}
    {variants : Option (Entries Json)} {items : List Json}
    {violation : Violation}
    (found : violation ∈ chainViolations flag variants items) :
    ∃ part, OfTargeting part ∧ violation.place? = some ⟨flag, part⟩ := by
  simp only [chainViolations, List.mem_append] at found
  rcases found with (found | found) | found
  · exact ⟨_, .chain, allAbout_lengthViolations items violation found⟩
  · obtain ⟨rule, -, place | place⟩ := exists_place_of_mem_ruleViolations found
    · exact ⟨_, .condition rule, place⟩
    · exact ⟨_, .target rule, place⟩
  · exact ⟨_, .fallback, allAbout_fallbackViolations _ violation found⟩

theorem exists_place_of_mem_targetingViolations {violation : Violation}
    (found : violation ∈ targetingViolations key fields) :
    ∃ part, OfTargeting part ∧ violation.place? = some ⟨key, part⟩ := by
  unfold targetingViolations at found
  split at found
  · simp at found
  · simp at found
  · unfold treeViolations at found
    split at found
    · simp at found
    · split at found
      · rw [List.mem_singleton.mp found]
        exact ⟨_, .chain, rfl⟩
      · exact exists_place_of_mem_chainViolations found
      · rw [List.mem_singleton.mp found]
        exact ⟨_, .chain, rfl⟩
  · rw [List.mem_singleton.mp found]
    exact ⟨_, .tree, rfl⟩

theorem exists_part_of_mem_flagViolations {flag : Json} {violation : Violation}
    (found : violation ∈ flagViolations key flag) :
    ∃ part, violation.place? = some ⟨key, part⟩ := by
  unfold flagViolations at found
  rcases List.mem_append.mp found with found | found
  · exact ⟨_, allAbout_keyViolations key violation found⟩
  · split at found
    · simp only [List.mem_append] at found
      rcases found with ((found | found) | found) | found
      · exact ⟨_, allAbout_stateViolations _ violation found⟩
      · exact ⟨_, allAbout_variantsViolations _ violation found⟩
      · exact ⟨_, allAbout_defaultViolations _ violation found⟩
      · obtain ⟨part, -, place⟩ := exists_place_of_mem_targetingViolations found
        exact ⟨part, place⟩
    · rw [List.mem_singleton.mp found]
      exact ⟨_, rfl⟩

theorem about_default_flagViolations :
    about ⟨key, .field "defaultVariant"⟩ (flagViolations key (.obj fields)) =
      defaultViolations key fields := by
  have own : about ⟨key, .field "defaultVariant"⟩ (keyViolations key) = [] :=
    (allAbout_keyViolations key).about_of_ne (by simp)
  have state : about ⟨key, .field "defaultVariant"⟩
      (stateViolations key fields) = [] :=
    (allAbout_stateViolations fields).about_of_ne (by simp)
  have variants : about ⟨key, .field "defaultVariant"⟩
      (variantsViolations key fields) = [] :=
    (allAbout_variantsViolations fields).about_of_ne (by simp)
  have targeting : about ⟨key, .field "defaultVariant"⟩
      (targetingViolations key fields) = [] := by
    apply about_eq_nil
    intro violation found same
    obtain ⟨part, inside, place⟩ := exists_place_of_mem_targetingViolations found
    cases inside <;> simp [place] at same
  simp only [flagViolations, about_append, own, state, variants, targeting,
    (allAbout_defaultViolations fields).about_self, List.nil_append,
    List.append_nil]

theorem about_targeting_flagViolations (inside : OfTargeting part) :
    about ⟨key, part⟩ (flagViolations key (.obj fields)) =
      about ⟨key, part⟩ (targetingViolations key fields) := by
  have own : about ⟨key, part⟩ (keyViolations key) = [] :=
    (allAbout_keyViolations key).about_of_ne (by cases inside <;> simp)
  have state : about ⟨key, part⟩ (stateViolations key fields) = [] :=
    (allAbout_stateViolations fields).about_of_ne (by cases inside <;> simp)
  have variants : about ⟨key, part⟩ (variantsViolations key fields) = [] :=
    (allAbout_variantsViolations fields).about_of_ne (by cases inside <;> simp)
  have default : about ⟨key, part⟩ (defaultViolations key fields) = [] :=
    (allAbout_defaultViolations fields).about_of_ne (by cases inside <;> simp)
  simp only [flagViolations, about_append, own, state, variants, default,
    List.nil_append]

theorem targetingViolations_of_chain {members : Entries Json}
    {variants : Entries Json} {items : List Json}
    (given : Entries.value? "variants" fields = some (.obj variants))
    (targeting : Entries.value? "targeting" fields = some (.obj members))
    (chain : Entries.value? ifKey members = some (.arr items)) :
    targetingViolations key fields =
      chainViolations key (some variants) items := by
  have nonempty : members.isEmpty = false := by
    cases members with
    | nil => simp [Entries.value?] at chain
    | cons member members => rfl
  simp [targetingViolations, targeting, treeViolations, nonempty, chain,
    usableVariants_of_given given]

end Flags

section Documents

variable {flags : Entries Json}

theorem about_flags {key : String} {flag : Json} (part : Part)
    (distinct : flags.names.Nodup) (known : (key, flag) ∈ flags) :
    about ⟨key, part⟩
        (flags.flatMap fun entry => flagViolations entry.1 entry.2) =
      about ⟨key, part⟩ (flagViolations key flag) := by
  have elsewhere {others : Entries Json} (absent : key ∉ others.names) :
      about ⟨key, part⟩
        (others.flatMap fun entry => flagViolations entry.1 entry.2) = [] := by
    apply about_eq_nil
    intro violation found same
    obtain ⟨entry, hentry, found⟩ := List.mem_flatMap.mp found
    obtain ⟨other, place⟩ := exists_part_of_mem_flagViolations found
    rw [place, Option.some.injEq, Place.mk.injEq] at same
    exact absent (same.1 ▸ List.mem_map_of_mem hentry)
  induction flags with
  | nil => simp at known
  | cons entry flags ih =>
      rw [Entries.names_cons, List.nodup_cons] at distinct
      rw [List.flatMap_cons, about_append]
      -- the flag is the first one, or the first one has another key
      rcases List.mem_cons.mp known with rfl | known
      · rw [elsewhere distinct.1, List.append_nil]
      · have differs : entry.1 ≠ key := by
          intro same
          exact distinct.1 (same ▸ List.mem_map_of_mem known)
        have first : about ⟨key, part⟩ (flagViolations entry.1 entry.2) = [] := by
          simpa using @elsewhere [entry] (by simpa using differs.symm)
        rw [first, List.nil_append, ih distinct.2 known]

end Documents

/-! ## References to variants -/

section References

variable {flag name : String} {rule : Nat} {variants : Entries Json}

theorem foundOnceIff_unknownDefault {fields : Entries Json}
    (given : Entries.value? "variants" fields = some (.obj variants)) :
    FoundOnceIff (defaultViolations flag fields) (.unknownDefault flag name)
      (Entries.value? "defaultVariant" fields = some (.str name) ∧
        name ∉ variants.names) := by
  unfold FoundOnceIff defaultViolations
  rw [usableVariants_of_given given]
  split <;> grind [isUnknown]

theorem foundOnceIff_unknownTarget (target : Json) :
    FoundOnceIff (targetViolations flag rule (some variants) target)
      (.unknownTarget flag rule name)
      (target = .str name ∧ name ∉ variants.names) := by
  unfold FoundOnceIff targetViolations
  split <;> grind [isUnknown]

theorem foundOnceIff_targetNotString (target : Json) :
    FoundOnceIff (targetViolations flag rule (some variants) target)
      (.targetNotString flag rule) (¬ IsText target) := by
  unfold FoundOnceIff targetViolations IsText
  split <;> grind [isUnknown]

theorem foundOnceIff_unknownFallback (fallback : Option Json) :
    FoundOnceIff (fallbackViolations flag (some variants) fallback)
      (.unknownFallback flag name)
      (fallback = some (.str name) ∧ name ∉ variants.names) := by
  unfold FoundOnceIff fallbackViolations
  split <;> grind [isUnknown]

theorem foundOnceIff_fallbackNotString (fallback : Option Json) :
    FoundOnceIff (fallbackViolations flag (some variants) fallback)
      (.fallbackNotString flag)
      (∃ last, fallback = some last ∧ ¬ IsText last) := by
  unfold FoundOnceIff fallbackViolations IsText
  split <;> grind [isUnknown]

end References

/--
The references in a chain are reported by their positions: the target of each
rule, and the last item where the length is odd.
-/
structure ReportsReferences (found : List Violation) (flag : String)
    (variants : Entries Json) (items : List Json) : Prop where
  unknownTarget : ∀ index name,
    FoundOnceIff found (.unknownTarget flag (index + 1) name)
      (items[2 * index + 1]? = some (.str name) ∧ name ∉ variants.names)
  targetNotString : ∀ index,
    FoundOnceIff found (.targetNotString flag (index + 1))
      (∃ target, items[2 * index + 1]? = some target ∧ ¬ IsText target)
  unknownFallback : ∀ name,
    FoundOnceIff found (.unknownFallback flag name)
      (items.length % 2 = 1 ∧ items.getLast? = some (.str name) ∧
        name ∉ variants.names)
  fallbackNotString :
    FoundOnceIff found (.fallbackNotString flag)
      (items.length % 2 = 1 ∧
        ∃ last, items.getLast? = some last ∧ ¬ IsText last)

theorem reportsReferences_chainViolations (flag : String)
    (variants : Entries Json) (items : List Json) :
    ReportsReferences (chainViolations flag (some variants) items) flag
      variants items := by
  have target (index : Nat) :=
    @about_target_chainViolations flag (some variants) items index
  have fallback := @about_fallback_chainViolations flag (some variants) items
  rw [fallback_split] at fallback
  constructor
  · intro index name
    rw [← foundOnceIff_about_iff rfl, target]
    cases items[2 * index + 1]? with
    | none => simp [FoundOnceIff]
    | some item => simpa using foundOnceIff_unknownTarget item
  · intro index
    rw [← foundOnceIff_about_iff rfl, target]
    cases items[2 * index + 1]? with
    | none => simp [FoundOnceIff]
    | some item => simpa using foundOnceIff_targetNotString item
  · intro name
    rw [← foundOnceIff_about_iff rfl, fallback]
    by_cases odd : items.length % 2 = 1
    · simpa [odd] using foundOnceIff_unknownFallback items.getLast?
    · simp [odd, fallbackViolations, FoundOnceIff]
  · rw [← foundOnceIff_about_iff rfl, fallback]
    by_cases odd : items.length % 2 = 1
    · simpa [odd] using foundOnceIff_fallbackNotString items.getLast?
    · simp [odd, fallbackViolations, FoundOnceIff]

theorem ReportsReferences.of_about {found others : List Violation}
    {flag : String} {variants : Entries Json} {items : List Json}
    (h : ReportsReferences others flag variants items)
    (same : ∀ part, OfTargeting part →
      about ⟨flag, part⟩ found = about ⟨flag, part⟩ others) :
    ReportsReferences found flag variants items where
  unknownTarget index name :=
    (h.unknownTarget index name).of_about rfl (same _ (.target _))
  targetNotString index :=
    (h.targetNotString index).of_about rfl (same _ (.target _))
  unknownFallback name :=
    (h.unknownFallback name).of_about rfl (same _ .fallback)
  fallbackNotString := h.fallbackNotString.of_about rfl (same _ .fallback)

def alone (flag : String × Json) : Json := .obj [("flags", .obj [flag])]

theorem violations_alone (flag : String × Json) :
    violations (alone flag) = flagViolations flag.1 flag.2 := by
  simp [violations, alone, Entries.value?]

theorem violations_of_flags {members flags : Entries Json}
    (given : Entries.value? "flags" members = some (.obj flags)) :
    violations (.obj members) =
      flags.flatMap fun flag => flagViolations flag.1 flag.2 := by
  simp only [violations, given]

/--
The violations of a document are those of its flags alone, one after another.
However malformed it is otherwise, a flag with an object of variants has its
references to them reported each for itself, as long as no flag repeats a key.
-/
theorem violations_unmasked {members flags : Entries Json}
    (given : Entries.value? "flags" members = some (.obj flags)) :
    violations (.obj members) =
        flags.flatMap (fun flag => violations (alone flag)) ∧
      (validate (.obj members)).errors =
        flags.flatMap (fun flag => (validate (alone flag)).errors) ∧
      (flags.names.Nodup → ∀ key fields variants, (key, .obj fields) ∈ flags →
        Entries.value? "variants" fields = some (.obj variants) →
          (∀ name, FoundOnceIff (violations (.obj members))
            (.unknownDefault key name)
            (Entries.value? "defaultVariant" fields = some (.str name) ∧
              name ∉ variants.names)) ∧
          ∀ targeting items,
            Entries.value? "targeting" fields = some (.obj targeting) →
            Entries.value? ifKey targeting = some (.arr items) →
              ReportsReferences (violations (.obj members)) key variants
                items) := by
  have all := violations_of_flags given
  refine ⟨?_, ?_, ?_⟩
  · simp only [all, violations_alone]
  · simp only [validate, Report.ofViolations, all, violations_alone,
      List.map_flatMap]
  · intro distinct key fields variants known usable
    have own (part : Part) : about ⟨key, part⟩ (violations (.obj members)) =
        about ⟨key, part⟩ (flagViolations key (.obj fields)) := by
      rw [all, about_flags part distinct known]
    constructor
    · intro name
      rw [← foundOnceIff_about_iff rfl, own, about_default_flagViolations]
      exact foundOnceIff_unknownDefault usable
    · intro targeting items tree chain
      apply (reportsReferences_chainViolations key variants items).of_about
      intro part inside
      rw [own, about_targeting_flagViolations inside,
        targetingViolations_of_chain usable tree chain]

def tangledFlags : Entries Json :=
  [("a", .obj [("state", .str "ON"),
      ("variants", .obj [("on", .bool true), ("", .null)]),
      ("targeting", .obj [("else", .null), ("if", .arr
        [.str "always", .str "gone", .obj [("!", .arr [])], .obj [],
          .obj [("in", .arr [.obj [("var", .str "")]])], .str "on",
          .str "lost"])]),
      ("defaultVariant", .str "off")]),
    ("", .null),
    ("b", .obj [("defaultVariant", .null), ("variants", .obj []),
      ("targeting", .obj [("if", .arr [.null])])])]

theorem violations_unmasked_tangled :
    tangledFlags.names.Nodup ∧
      violations (.obj [("flags", .obj tangledFlags)]) =
        violations (alone tangledFlags[0]) ++
          [.emptyFlagKey, .flagNotObject ""] ++
          violations (alone tangledFlags[2]) ∧
      let found := violations (.obj [("flags", .obj tangledFlags)])
      found.count (.unknownDefault "a" "off") = 1 ∧
        found.count (.unknownTarget "a" 1 "gone") = 1 ∧
        found.count (.targetNotString "a" 2) = 1 ∧
        .unknownTarget "a" 3 "on" ∉ found ∧
        found.count (.unknownFallback "a" "lost") = 1 ∧
        found.count (.fallbackNotString "b") = 1 := by
  have distinct : tangledFlags.names.Nodup := by decide
  obtain ⟨parts, -, reported⟩ :=
    @violations_unmasked [("flags", .obj tangledFlags)] tangledFlags rfl
  obtain ⟨default, references⟩ :=
    reported distinct "a" _ _ (.head _) rfl
  have chain := references _ _ rfl rfl
  have other := (reported distinct "b" _ _
    (.tail _ (.tail _ (.head _))) rfl).2 _ _ rfl rfl
  refine ⟨distinct, parts.trans (by decide +kernel), ?_, ?_, ?_, ?_, ?_, ?_⟩
  · exact (default "off").1 ⟨rfl, by decide⟩
  · exact (chain.unknownTarget 0 "gone").1 ⟨rfl, by decide⟩
  · exact (chain.targetNotString 1).1 ⟨_, rfl, by simp [IsText]⟩
  · exact (chain.unknownTarget 2 "on").2 (by decide)
  · exact (chain.unknownFallback "lost").1 ⟨rfl, rfl, by decide⟩
  · exact other.fallbackNotString.1 ⟨rfl, _, rfl, by simp [IsText]⟩

end Validation

end FeatureFlags
