import FeatureFlags.Draft.Edit
import Mathlib.Data.List.InsertIdx

/-!
# The default variant of an edited draft

A default is resolved when it names a variant, or is empty where there is none.
Every edit keeps a resolved default so, but for a renaming that takes the
default's name away from the last of several variants that has it.  Main
statements: a run of edits without such a renaming ends with a sole variant only
as the default, and one that renames the default while it is the sole variant,
or else not at all, leads through resolved drafts only.  After such a renaming
the removals that follow leave a sole variant that is not the default.  And a
removal moves the default though its name remains, when another comes first.
-/

namespace FeatureFlags

namespace Draft

def variantNames (draft : Draft) : List String :=
  draft.variants.map Variant.name

/-- The default names a variant, or is empty where there is no variant. -/
def Resolved (draft : Draft) : Prop :=
  draft.defaultVariant ∈ draft.variantNames ∨
    draft.variants = [] ∧ draft.defaultVariant = ""

/--
The edit gives another name to the only variant that has the default's, though
it is not the sole variant.
-/
def Strands (draft : Draft) : Edit → Prop
  | .renameVariant index name =>
    draft.variantNames[index]? = some draft.defaultVariant ∧
      name ≠ draft.defaultVariant ∧
      draft.defaultVariant ∉ draft.variantNames.eraseIdx index ∧
      draft.variants.length ≠ 1
  | _ => False

instance (draft : Draft) : (edit : Edit) → Decidable (draft.Strands edit)
  | .renameVariant _ _ => inferInstanceAs (Decidable (_ ∧ _))
  | .setType _ => inferInstanceAs (Decidable False)
  | .addVariant => inferInstanceAs (Decidable False)
  | .setVariantValue _ _ => inferInstanceAs (Decidable False)
  | .removeVariant _ => inferInstanceAs (Decidable False)
  | .addRule => inferInstanceAs (Decidable False)
  | .removeRule _ => inferInstanceAs (Decidable False)

def NeverStrands (draft : Draft) : List Edit → Prop
  | [] => True
  | edit :: edits =>
    ¬ draft.Strands edit ∧ (draft.apply edit).NeverStrands edits

instance decidableNeverStrands :
    (draft : Draft) → (edits : List Edit) → Decidable (draft.NeverStrands edits)
  | _, [] => inferInstanceAs (Decidable True)
  | draft, edit :: edits =>
    have := decidableNeverStrands (draft.apply edit) edits
    inferInstanceAs (Decidable (_ ∧ _))

theorem names_modify_name (variants : List Variant) (index : Nat)
    (name : String) :
    (variants.modify index fun variant => { variant with name }).map
        Variant.name = (variants.map Variant.name).set index name := by
  induction variants generalizing index with
  | nil => simp
  | cons variant variants ih => cases index <;> simp [ih]

theorem names_modify_value (variants : List Variant) (index : Nat)
    (value : FormValue) :
    (variants.modify index fun variant => { variant with value }).map
        Variant.name = variants.map Variant.name := by
  induction variants generalizing index with
  | nil => simp
  | cons variant variants ih => cases index <;> simp [ih]

theorem mem_set_iff_mem_eraseIdx {names : List String} {index : Nat}
    (found : index < names.length) (name other : String) :
    other ∈ names.set index name ↔
      name = other ∨ other ∈ names.eraseIdx index := by
  induction names generalizing index with
  | nil => simp at found
  | cons first names ih =>
      cases index with
      | zero => simp [eq_comm]
      | succ index =>
          simp only [List.set_cons_succ, List.eraseIdx_cons_succ,
            List.mem_cons, ih (Nat.lt_of_succ_lt_succ found)]
          exact or_left_comm

theorem mem_eraseIdx_of_ne {names : List String} {index : Nat} {name : String}
    (known : name ∈ names) (differs : names[index]? ≠ some name) :
    name ∈ names.eraseIdx index := by
  obtain ⟨place, found⟩ := List.mem_iff_getElem?.mp known
  rw [List.mem_eraseIdx_iff_getElem?]
  refine ⟨place, ?_, found⟩
  rintro rfl
  exact differs found

section

variable {draft : Draft}

theorem named_of_resolved (resolved : draft.Resolved)
    (nonempty : draft.variants ≠ []) :
    draft.defaultVariant ∈ draft.variantNames := by
  rcases resolved with named | ⟨none, -⟩
  · exact named
  · exact absurd none nonempty

theorem resolved_iff_named (nonempty : draft.variants ≠ []) :
    draft.Resolved ↔ draft.defaultVariant ∈ draft.variantNames :=
  ⟨fun resolved => named_of_resolved resolved nonempty, .inl⟩

theorem resolved_of_firstName
    (h : draft.defaultVariant = draft.firstVariantName?.getD "") :
    draft.Resolved := by
  unfold firstVariantName? at h
  cases variants : draft.variants with
  | nil => exact .inr ⟨variants, by simpa [variants] using h⟩
  | cons first rest =>
      left
      rw [variants] at h
      simp [variantNames, variants, h]

theorem resolved_new (key : String) : (new key).Resolved := by
  simp [Resolved, new, variantNames, booleanVariants]

theorem resolved_setType (draft : Draft) (type : ValueType) :
    (draft.setType type).Resolved := by
  cases type <;>
    simp [Resolved, setType, variantNames, ValueType.preset, booleanVariants]

theorem resolved_addVariant (resolved : draft.Resolved) :
    draft.addVariant.Resolved := by
  left
  rcases resolved with named | ⟨none, empty⟩
  · have names : draft.addVariant.variantNames = draft.variantNames ++ [""] := by
      simp [variantNames, addVariant]
    rw [names]
    exact List.mem_append_left _ named
  · simp [addVariant, variantNames, none, empty]

theorem resolved_adoptSoleVariant_iff :
    draft.adoptSoleVariant.Resolved ↔
      draft.Resolved ∨ draft.variants.length = 1 := by
  unfold adoptSoleVariant
  split
  · rename_i only sole
    simp [Resolved, variantNames, sole]
  · rename_i several
    have : draft.variants.length ≠ 1 := by
      rw [ne_eq, List.length_eq_one_iff]
      rintro ⟨only, sole⟩
      exact several only sole
    simp [this]

theorem resolved_changeVariant_iff (resolved : draft.Resolved) (index : Nat)
    (change : Variant → Variant) :
    ((draft.changeVariant? index change).getD draft).Resolved ↔
      draft.variants.length ≤ index ∨ draft.variants.length = 1 ∨
        draft.defaultVariant ∈
          (draft.variants.modify index change).map Variant.name := by
  unfold changeVariant?
  by_cases found : index < draft.variants.length
  · have nonempty : draft.variants.modify index change ≠ [] :=
      List.ne_nil_of_length_pos (by rw [List.length_modify]; omega)
    rw [if_pos found, Option.getD_some, resolved_adoptSoleVariant_iff,
      resolved_iff_named nonempty, variantNames, List.length_modify, or_comm]
    have : ¬ draft.variants.length ≤ index := by omega
    simp [this]
  · simp [found, resolved, Nat.le_of_not_lt found]

theorem resolved_renameVariant_iff (resolved : draft.Resolved) (index : Nat)
    (name : String) :
    (draft.apply (.renameVariant index name)).Resolved ↔
      ¬ draft.Strands (.renameVariant index name) := by
  have length : draft.variantNames.length = draft.variants.length := by
    simp [variantNames]
  refine (resolved_changeVariant_iff resolved index _).trans ?_
  rw [names_modify_name, ← variantNames, Strands]
  by_cases found : index < draft.variants.length
  · have nonempty : draft.variants ≠ [] := List.ne_nil_of_length_pos (by omega)
    have known := named_of_resolved resolved nonempty
    have inside : ¬ draft.variants.length ≤ index := by omega
    rw [mem_set_iff_mem_eraseIdx (by omega)]
    by_cases default : draft.variantNames[index]? = some draft.defaultVariant
    · simp only [default, inside, true_and, false_or]
      tauto
    · have others := mem_eraseIdx_of_ne known default
      simp [default, others]
  · have outside : draft.variants.length ≤ index := by omega
    have absent : draft.variantNames[index]? = none := by
      rw [List.getElem?_eq_none_iff]
      omega
    simp [outside, absent]

theorem resolved_setVariantValue (resolved : draft.Resolved) (index : Nat)
    (value : FormValue) :
    (draft.apply (.setVariantValue index value)).Resolved := by
  refine (resolved_changeVariant_iff resolved index _).mpr ?_
  by_cases found : index < draft.variants.length
  · have nonempty : draft.variants ≠ [] := List.ne_nil_of_length_pos (by omega)
    right; right
    rw [names_modify_value]
    exact named_of_resolved resolved nonempty
  · left
    omega

theorem variantNames_removeVariant (draft : Draft) (index : Nat) :
    (draft.apply (.removeVariant index)).variantNames =
      draft.variantNames.eraseIdx index := by
  change ((draft.removeVariant? index).getD draft).variantNames = _
  unfold removeVariant?
  cases found : draft.variants[index]? with
  | none =>
      have outside : draft.variantNames.length ≤ index := by
        simpa [variantNames] using found
      rw [List.eraseIdx_of_length_le outside]
      rfl
  | some removed =>
      by_cases default : removed.name = draft.defaultVariant <;>
        simp [default, variantNames, List.eraseIdx_map]

theorem defaultVariant_removeVariant (draft : Draft) (index : Nat) :
    (draft.apply (.removeVariant index)).defaultVariant =
      if draft.variantNames[index]? = some draft.defaultVariant then
        (draft.variantNames.eraseIdx index).head?.getD ""
      else draft.defaultVariant := by
  change ((draft.removeVariant? index).getD draft).defaultVariant = _
  unfold removeVariant?
  cases found : draft.variants[index]? with
  | none => simp [variantNames, found]
  | some removed =>
      by_cases default : removed.name = draft.defaultVariant
      · simp [variantNames, found, default, firstVariantName?,
          List.eraseIdx_map]
      · simp [variantNames, found, default]

theorem resolved_removeVariant (resolved : draft.Resolved) (index : Nat) :
    (draft.apply (.removeVariant index)).Resolved := by
  have names := variantNames_removeVariant draft index
  have default := defaultVariant_removeVariant draft index
  by_cases namesake : draft.variantNames[index]? = some draft.defaultVariant
  · rw [if_pos namesake, ← names] at default
    apply resolved_of_firstName
    rw [default, variantNames, List.head?_map, firstVariantName?]
  · rw [if_neg namesake] at default
    rw [Resolved, default, names]
    rcases resolved with named | ⟨none, empty⟩
    · exact .inl (mem_eraseIdx_of_ne named namesake)
    · have unnamed : draft.variantNames = [] := by rw [variantNames, none]; rfl
      rw [unnamed, List.eraseIdx_nil] at names
      exact .inr ⟨List.map_eq_nil_iff.mp names, empty⟩

theorem resolved_removeRule (resolved : draft.Resolved) (index : Nat) :
    (draft.apply (.removeRule index)).Resolved := by
  change ((draft.removeRule? index).getD draft).Resolved
  unfold removeRule?
  split <;> exact resolved

theorem resolved_apply_iff (resolved : draft.Resolved) (edit : Edit) :
    (draft.apply edit).Resolved ↔ ¬ draft.Strands edit := by
  cases edit with
  | renameVariant index name => exact resolved_renameVariant_iff resolved index name
  | setType type => exact iff_of_true (resolved_setType draft type) id
  | addVariant => exact iff_of_true (resolved_addVariant resolved) id
  | setVariantValue index value =>
      exact iff_of_true (resolved_setVariantValue resolved index value) id
  | removeVariant index =>
      exact iff_of_true (resolved_removeVariant resolved index) id
  | addRule => exact iff_of_true resolved id
  | removeRule index => exact iff_of_true (resolved_removeRule resolved index) id

end

theorem resolved_run {draft : Draft} {edits : List Edit}
    (resolved : draft.Resolved) (kept : draft.NeverStrands edits) :
    (draft.run edits).Resolved := by
  induction edits generalizing draft with
  | nil => exact resolved
  | cons edit edits ih =>
      exact ih ((resolved_apply_iff resolved edit).mpr kept.1) kept.2

theorem resolved_iff_of_sole {draft : Draft} {only : Variant}
    (sole : draft.variants = [only]) :
    draft.Resolved ↔ draft.defaultVariant = only.name := by
  rw [resolved_iff_named (by simp [sole]), variantNames, sole]
  simp

/-! ## Runs that strand the default -/

theorem apply_removeFirst {draft : Draft} {first : Variant}
    {rest : List Variant} (variants : draft.variants = first :: rest)
    (differs : first.name ≠ draft.defaultVariant) :
    draft.apply (.removeVariant 0) = { draft with variants := rest } := by
  change (draft.removeVariant? 0).getD draft = _
  simp [removeVariant?, variants, differs]

theorem exists_sole_of_not_resolved {draft : Draft}
    (nonempty : draft.variants ≠ []) (dangling : ¬ draft.Resolved) :
    ∃ count only,
      (draft.run (List.replicate count (.removeVariant 0))).variants = [only] ∧
      (draft.run (List.replicate count (.removeVariant 0))).defaultVariant ≠
        only.name := by
  obtain ⟨first, rest, variants⟩ := List.exists_cons_of_ne_nil nonempty
  induction rest generalizing draft first with
  | nil =>
      refine ⟨0, first, variants, ?_⟩
      rwa [resolved_iff_of_sole variants] at dangling
  | cons second rest ih =>
      rw [resolved_iff_named nonempty, variantNames, variants] at dangling
      simp only [List.map_cons, List.mem_cons, not_or] at dangling
      have removed := apply_removeFirst variants (Ne.symm dangling.1)
      have still : ¬ Resolved { draft with variants := second :: rest } := by
        rw [resolved_iff_named (List.cons_ne_nil _ _), variantNames]
        simpa using dangling.2
      obtain ⟨count, only, sole, differs⟩ :=
        ih (List.cons_ne_nil _ _) still second rfl
      refine ⟨count + 1, only, ?_⟩
      rw [List.replicate_succ, run, List.foldl_cons, removed]
      exact ⟨sole, differs⟩

theorem variants_adoptSoleVariant (draft : Draft) :
    draft.adoptSoleVariant.variants = draft.variants := by
  unfold adoptSoleVariant
  split <;> rfl

theorem variants_ne_nil_of_strands {draft : Draft} {edit : Edit}
    (strands : draft.Strands edit) : (draft.apply edit).variants ≠ [] := by
  cases edit with
  | renameVariant index name =>
      have found : index < draft.variants.length := by
        simpa [variantNames] using (List.getElem?_eq_some_iff.mp strands.1).1
      change ((draft.changeVariant? index _).getD draft).variants ≠ []
      rw [changeVariant?, if_pos found, Option.getD_some,
        variants_adoptSoleVariant]
      exact List.ne_nil_of_length_pos (by rw [List.length_modify]; omega)
  | _ => exact strands.elim

theorem resolved_of_strands {draft : Draft} {edit : Edit}
    (strands : draft.Strands edit) : draft.Resolved := by
  cases edit with
  | renameVariant index name => exact .inl (List.mem_of_getElem? strands.1)
  | _ => exact strands.elim

theorem exists_sole_of_strands {draft : Draft} {edit : Edit}
    (strands : draft.Strands edit) :
    ∃ count only,
      (draft.run (edit :: List.replicate count (.removeVariant 0))).variants =
          [only] ∧
      (draft.run
        (edit :: List.replicate count (.removeVariant 0))).defaultVariant ≠
          only.name := by
  have dangling := mt (resolved_apply_iff (resolved_of_strands strands) edit).mp
    (not_not.mpr strands)
  exact exists_sole_of_not_resolved (variants_ne_nil_of_strands strands) dangling

theorem run_append (draft : Draft) (front back : List Edit) :
    draft.run (front ++ back) = (draft.run front).run back :=
  List.foldl_append

/--
A run from a new draft that never strands the default ends with a sole variant
only as the default.  Wherever an edit of a run strands it, removals leave a sole
variant that is not the default.
-/
theorem sole_variant_is_default (key : String) (edits : List Edit) :
    ((new key).NeverStrands edits →
      ∀ only, ((new key).run edits).variants = [only] →
        ((new key).run edits).defaultVariant = only.name) ∧
    ∀ edit, ((new key).run edits).Strands edit →
      ∃ count only,
        let ended := (new key).run
          (edits ++ edit :: List.replicate count (.removeVariant 0))
        ended.variants = [only] ∧ ended.defaultVariant ≠ only.name := by
  constructor
  · intro kept only sole
    exact (resolved_iff_of_sole sole).mp (resolved_run (resolved_new key) kept)
  · intro edit strands
    obtain ⟨count, only, found⟩ := exists_sole_of_strands strands
    refine ⟨count, only, ?_⟩
    rwa [run_append]

def lastingEdits : List Edit :=
  [.addVariant, .renameVariant 2 "false", .renameVariant 1 "off",
    .removeVariant 0, .removeVariant 5, .removeVariant 1,
    .renameVariant 0 "", .addVariant, .removeVariant 0]

def perilousEdits : List Edit :=
  lastingEdits ++ [.renameVariant 0 "on", .addVariant]

theorem sole_variant_is_default_lasting :
    ((new "f").NeverStrands lastingEdits ∧
      ((new "f").run lastingEdits).variants = [⟨"", .bool false⟩] ∧
      ((new "f").run lastingEdits).defaultVariant = "") ∧
    ((new "f").run perilousEdits).Strands (.renameVariant 0 "off") ∧
      ∃ count only,
        let ended := (new "f").run (perilousEdits ++
          .renameVariant 0 "off" :: List.replicate count (.removeVariant 0))
        ended.variants = [only] ∧ ended.defaultVariant ≠ only.name := by
  have kept : (new "f").NeverStrands lastingEdits := by decide +kernel
  have sole : ((new "f").run lastingEdits).variants = [⟨"", .bool false⟩] := by
    decide +kernel
  have strands :
      ((new "f").run perilousEdits).Strands (.renameVariant 0 "off") := by
    decide +kernel
  exact ⟨⟨kept, sole, (sole_variant_is_default "f" _).1 kept _ sole⟩, strands,
    (sole_variant_is_default "f" _).2 _ strands⟩

theorem exists_sole_variant_not_default :
    ¬ ∀ (key : String) (edits : List Edit) (only : Variant),
      ((new key).run edits).variants = [only] →
        ((new key).run edits).defaultVariant = only.name := by
  intro always
  have renamed := always "f" [.renameVariant 1 "off", .removeVariant 0]
    ⟨"off", .bool false⟩ (by decide)
  exact absurd renamed (by decide)

/-- Every edit of the run is allowed where it is carried out. -/
def Throughout (allowed : Draft → Edit → Prop) (draft : Draft) :
    List Edit → Prop
  | [] => True
  | edit :: edits =>
    allowed draft edit ∧ (draft.apply edit).Throughout allowed edits

instance decidableThroughout {allowed : Draft → Edit → Prop}
    [∀ draft edit, Decidable (allowed draft edit)] (draft : Draft) :
    (edits : List Edit) → Decidable (draft.Throughout allowed edits)
  | [] => inferInstanceAs (Decidable True)
  | edit :: edits =>
    have : Decidable ((draft.apply edit).Throughout allowed edits) :=
      decidableThroughout (draft.apply edit) edits
    inferInstanceAs (Decidable (_ ∧ _))

theorem Throughout.holds {allowed : Draft → Edit → Prop} {holds : Draft → Prop}
    (kept : ∀ {draft edit}, holds draft → allowed draft edit →
      holds (draft.apply edit))
    {draft : Draft} {edits : List Edit} (start : holds draft)
    (h : draft.Throughout allowed edits) (count : Nat) :
    holds (draft.run (edits.take count)) := by
  induction edits generalizing draft count with
  | nil =>
      rw [List.take_nil]
      exact start
  | cons edit edits ih =>
      cases count with
      | zero => exact start
      | succ count => exact ih (kept start h.1) h.2 count

/-! ## Runs that spare the default -/

/-- A renaming is of the sole variant, or of one without the default's name. -/
def SparesDefault (draft : Draft) : Edit → Prop
  | .renameVariant index _ =>
    ∀ variant ∈ draft.variants[index]?,
      variant.name ≠ draft.defaultVariant ∨ draft.variants.length = 1
  | _ => True

instance (draft : Draft) : (edit : Edit) → Decidable (draft.SparesDefault edit)
  | .renameVariant index _ =>
    inferInstanceAs (Decidable (∀ variant ∈ draft.variants[index]?, _))
  | .setType _ => inferInstanceAs (Decidable True)
  | .addVariant => inferInstanceAs (Decidable True)
  | .setVariantValue _ _ => inferInstanceAs (Decidable True)
  | .removeVariant _ => inferInstanceAs (Decidable True)
  | .addRule => inferInstanceAs (Decidable True)
  | .removeRule _ => inferInstanceAs (Decidable True)

theorem not_strands_of_sparesDefault {draft : Draft} {edit : Edit}
    (spares : draft.SparesDefault edit) : ¬ draft.Strands edit := by
  cases edit with
  | renameVariant index name =>
      rintro ⟨default, -, -, several⟩
      rw [variantNames, List.getElem?_map] at default
      obtain ⟨variant, place, named⟩ := Option.map_eq_some_iff.mp default
      rcases spares variant place with differs | sole
      · exact differs named
      · exact several sole
  | _ => exact id

/--
A new draft is resolved, and so is every draft on the way of a run that starts
from a resolved one and spares the default.
-/
theorem default_stays_resolved :
    (∀ key, (new key).Resolved) ∧
      ∀ (draft : Draft) (edits : List Edit), draft.Resolved →
        draft.Throughout SparesDefault edits →
          ∀ count, (draft.run (edits.take count)).Resolved := by
  refine ⟨resolved_new, ?_⟩
  intro draft edits resolved spared
  refine Throughout.holds ?_ resolved spared
  intro draft edit resolved spares
  exact (resolved_apply_iff resolved edit).mpr
    (not_strands_of_sparesDefault spares)

def sparingEdits : List Edit :=
  [.renameVariant 0 "", .renameVariant 7 "false", .addVariant,
    .removeVariant 1, .removeVariant 0, .renameVariant 0 "on",
    .renameVariant 0 "off", .removeVariant 0, .addVariant, .setType .number,
    .renameVariant 1 "1", .removeVariant 0, .removeRule 3]

theorem default_stays_resolved_sparing :
    (new "f").Resolved ∧ (new "f").Throughout SparesDefault sparingEdits ∧
      (∀ count, ((new "f").run (sparingEdits.take count)).Resolved) ∧
      ((new "f").run (sparingEdits.take 8)).variants = [] ∧
      ((new "f").run sparingEdits).defaultVariant = "1" := by
  have spared : (new "f").Throughout SparesDefault sparingEdits := by
    decide +kernel
  obtain ⟨start, stays⟩ := default_stays_resolved
  exact ⟨start "f", spared, stays (new "f") sparingEdits (start "f") spared,
    by decide +kernel, by decide +kernel⟩

/-! ## Removals of namesakes -/

/--
The removal takes away a variant with the default's name, and the first of the
variants that are left has another name.
-/
def Displaces (draft : Draft) (index : Nat) : Prop :=
  draft.variantNames[index]? = some draft.defaultVariant ∧
    (draft.variantNames.eraseIdx index).head? ≠ some draft.defaultVariant

instance (draft : Draft) (index : Nat) : Decidable (draft.Displaces index) :=
  inferInstanceAs (Decidable (_ ∧ _))

/--
While a variant with the default's name is left, a removal moves the default
only where it displaces it, and then to the first variant left.
-/
theorem removal_keeps_default_iff {draft : Draft} {index : Nat}
    (remains : draft.defaultVariant ∈
      (draft.apply (.removeVariant index)).variantNames) :
    ((draft.apply (.removeVariant index)).defaultVariant =
        draft.defaultVariant ↔ ¬ draft.Displaces index) ∧
      (draft.Displaces index →
        (draft.apply (.removeVariant index)).variantNames.head? =
          some (draft.apply (.removeVariant index)).defaultVariant) := by
  rw [variantNames_removeVariant] at remains ⊢
  rw [defaultVariant_removeVariant]
  obtain ⟨first, rest, left⟩ :=
    List.exists_cons_of_ne_nil (List.ne_nil_of_mem remains)
  unfold Displaces
  by_cases namesake : draft.variantNames[index]? = some draft.defaultVariant
  · simp [namesake, left]
  · simp [namesake]

def namesakeDraft : Draft :=
  (new "f").run
    [.renameVariant 0 "false", .addVariant, .renameVariant 1 "a",
      .renameVariant 2 "false"]

theorem removal_keeps_default_iff_namesake :
    namesakeDraft.variantNames = ["false", "a", "false"] ∧
      (namesakeDraft.defaultVariant ∈
          (namesakeDraft.apply (.removeVariant 2)).variantNames ∧
        (namesakeDraft.apply (.removeVariant 2)).defaultVariant =
          namesakeDraft.defaultVariant) ∧
      namesakeDraft.defaultVariant ∈
          (namesakeDraft.apply (.removeVariant 0)).variantNames ∧
        some (namesakeDraft.apply (.removeVariant 0)).defaultVariant =
          some "a" := by
  have last : namesakeDraft.defaultVariant ∈
      (namesakeDraft.apply (.removeVariant 2)).variantNames := by decide +kernel
  have first : namesakeDraft.defaultVariant ∈
      (namesakeDraft.apply (.removeVariant 0)).variantNames := by decide +kernel
  have kept := (removal_keeps_default_iff last).1.mpr (by decide +kernel)
  have moved := (removal_keeps_default_iff first).2 (by decide +kernel)
  exact ⟨by decide +kernel, ⟨last, kept⟩, first, moved.symm⟩

theorem exists_displaced_default :
    ¬ ∀ (draft : Draft) (index : Nat),
      draft.defaultVariant ∈
          (draft.apply (.removeVariant index)).variantNames →
        (draft.apply (.removeVariant index)).defaultVariant =
          draft.defaultVariant := by
  intro always
  have kept := always
    ((new "f").run [.addVariant, .renameVariant 2 "false"]) 1 (by decide +kernel)
  exact absurd kept (by decide +kernel)

end Draft

end FeatureFlags
