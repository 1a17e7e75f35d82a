import FeatureFlags.Proofs.NormalForm

/-!
# What variants compile to

Compiling a draft reads the texts of an object flag and carries all other values
over.  Main statement: a draft compiles just when no text has to be read that is
refused, and the first refused one is reported, also where a later variant of the
same name would have taken its place; the variants of a draft that compiles are
its names where they are first used, each with the value of its last use.
-/

namespace FeatureFlags

/-- What a value of the form is written as: only the text of an object is read. -/
inductive FormValue.WrittenAs (type : ValueType) : FormValue → Json → Prop
  | bool (value : Bool) : WrittenAs type (.bool value) (.bool value)
  | number (value : Json.Number) : WrittenAs type (.number value) (.num value)
  | null : WrittenAs type .null .null
  | text (plain : type ≠ .object) (text : String) :
      WrittenAs type (.text text) (.str text)
  | object {text : String} {json : Json} (typed : type = .object)
      (reads : Json.parse text = .ok json) : WrittenAs type (.text text) json

namespace Variant

/-- The variant holds a text that cannot be read, for the given cause. -/
def Refused (variant : Variant) (cause : Json.SyntaxError) : Prop :=
  ∃ text, variant.value = .text text ∧ Json.parse text = .error cause

def FirstRefused (variants : List Variant) (variant : Variant)
    (cause : Json.SyntaxError) : Prop :=
  ∃ before after, variants = before ++ variant :: after ∧
    (∀ earlier ∈ before, ∀ other, ¬ earlier.Refused other) ∧
    variant.Refused cause

def LastOfName (variants : List Variant) (variant : Variant) : Prop :=
  ∃ before after, variants = before ++ variant :: after ∧
    variant.name ∉ after.map Variant.name

end Variant

namespace FormValue

variable {type : ValueType} {value : FormValue} {json : Json}

theorem writtenAs_iff_of_carried
    (carried : type = .object → ∀ text, value ≠ .text text) :
    value.WrittenAs type json ↔ value.toJson = json := by
  constructor
  · intro written
    cases written with
    | object typed reads => exact absurd rfl (carried typed _)
    | text plain text => rfl
    | bool value => rfl
    | number value => rfl
    | null => rfl
  · rintro rfl
    cases value with
    | text text => exact .text (fun object => carried object text rfl) text
    | bool value => exact .bool value
    | number value => exact .number value
    | null => exact .null

theorem writtenAs_object_text_iff {text : String} :
    (FormValue.text text).WrittenAs .object json ↔
      Json.parse text = .ok json := by
  constructor
  · intro written
    cases written with
    | text plain text => exact absurd rfl plain
    | object typed reads => exact reads
  · exact .object rfl

end FormValue

namespace Variant

variable {type : ValueType} {variant first : Variant} {rest : List Variant}
  {cause : Json.SyntaxError}

theorem compile_of_carried
    (carried : type = .object → ∀ text, variant.value ≠ .text text) :
    variant.compile type = .ok variant.value.toJson := by
  unfold compile
  split
  · rename_i text same
    exact absurd same (carried rfl text)
  · rfl

theorem compile_object_text {text : String} (same : variant.value = .text text) :
    variant.compile .object =
      (Json.parse text).mapError fun cause => ⟨variant.name, cause⟩ := by
  obtain ⟨name, value⟩ := variant
  obtain rfl : value = .text text := same
  rfl

theorem compile_eq_ok_iff {json : Json} :
    variant.compile type = .ok json ↔ variant.value.WrittenAs type json := by
  by_cases carried : type = .object → ∀ text, variant.value ≠ .text text
  · rw [compile_of_carried carried, FormValue.writtenAs_iff_of_carried carried,
      Except.ok.injEq]
  · push Not at carried
    obtain ⟨rfl, text, same⟩ := carried
    rw [compile_object_text same, same, FormValue.writtenAs_object_text_iff]
    cases Json.parse text <;> simp [Except.mapError]

theorem compile_eq_error_iff {error : CompileError} :
    variant.compile type = .error error ↔
      type = .object ∧ ∃ cause, variant.Refused cause ∧
        error = ⟨variant.name, cause⟩ := by
  constructor
  · intro failed
    by_cases carried : type = .object → ∀ text, variant.value ≠ .text text
    · exact nomatch failed.symm.trans (compile_of_carried carried)
    · push Not at carried
      obtain ⟨rfl, text, same⟩ := carried
      rw [compile_object_text same] at failed
      cases read : Json.parse text with
      | ok json => exact nomatch read ▸ failed
      | error cause =>
          rw [read] at failed
          exact ⟨rfl, cause, ⟨text, same, read⟩, (Except.error.inj failed).symm⟩
  · rintro ⟨rfl, cause, ⟨text, same, read⟩, rfl⟩
    rw [compile_object_text same, read]
    rfl

theorem exists_compile_object_iff :
    (∃ json, variant.compile .object = .ok json) ↔
      ∀ cause, ¬ variant.Refused cause := by
  constructor
  · rintro ⟨json, compiled⟩ cause refused
    have failed := compile_eq_error_iff.mpr ⟨rfl, cause, refused, rfl⟩
    exact nomatch compiled.symm.trans failed
  · intro sound
    cases compiled : variant.compile .object with
    | ok json => exact ⟨json, rfl⟩
    | error error =>
        obtain ⟨-, cause, refused, -⟩ := compile_eq_error_iff.mp compiled
        exact absurd refused (sound cause)

theorem exists_place_cons_iff {parts : List Variant → List Variant → Prop} :
    (∃ before after, first :: rest = before ++ variant :: after ∧
        parts before after) ↔
      (variant = first ∧ parts [] rest) ∨
        ∃ before after, rest = before ++ variant :: after ∧
          parts (first :: before) after := by
  constructor
  · rintro ⟨before, after, same, holds⟩
    cases before with
    | nil =>
        cases same
        exact .inl ⟨rfl, holds⟩
    | cons earlier before =>
        cases same
        exact .inr ⟨before, after, rfl, holds⟩
  · rintro (⟨rfl, holds⟩ | ⟨before, after, rfl, holds⟩)
    · exact ⟨[], rest, rfl, holds⟩
    · exact ⟨first :: before, after, rfl, holds⟩

theorem firstRefused_cons_iff :
    FirstRefused (first :: rest) variant cause ↔
      (variant = first ∧ first.Refused cause) ∨
        (∀ other, ¬ first.Refused other) ∧ FirstRefused rest variant cause := by
  rw [FirstRefused, exists_place_cons_iff]
  constructor
  · rintro (⟨rfl, -, refused⟩ | ⟨before, after, same, sound, refused⟩)
    · exact .inl ⟨rfl, refused⟩
    · rw [List.forall_mem_cons] at sound
      exact .inr ⟨sound.1, before, after, same, sound.2, refused⟩
  · rintro (⟨rfl, refused⟩ | ⟨sound, before, after, same, others, refused⟩)
    · exact .inl ⟨rfl, List.forall_mem_nil _, refused⟩
    · exact .inr ⟨before, after, same,
        List.forall_mem_cons.mpr ⟨sound, others⟩, refused⟩

theorem lastOfName_cons_iff :
    LastOfName (first :: rest) variant ↔
      (variant = first ∧ first.name ∉ rest.map Variant.name) ∨
        LastOfName rest variant := by
  rw [LastOfName, exists_place_cons_iff]
  refine or_congr_left (and_congr_right ?_)
  rintro rfl
  rfl

theorem exists_firstRefused_iff {variants : List Variant} :
    (∃ variant cause, FirstRefused variants variant cause) ↔
      ∃ variant ∈ variants, ∃ cause, variant.Refused cause := by
  constructor
  · rintro ⟨variant, cause, before, after, rfl, -, refused⟩
    exact ⟨variant, by simp, cause, refused⟩
  · rintro ⟨variant, hvariant, cause, refused⟩
    induction variants with
    | nil => simp at hvariant
    | cons first rest ih =>
        by_cases sound : ∀ other, ¬ first.Refused other
        · rcases List.mem_cons.mp hvariant with rfl | hvariant
          · exact absurd refused (sound cause)
          · obtain ⟨found, why, others⟩ := ih hvariant
            exact ⟨found, why, firstRefused_cons_iff.mpr (.inr ⟨sound, others⟩)⟩
        · push Not at sound
          obtain ⟨why, refused⟩ := sound
          exact ⟨first, why, firstRefused_cons_iff.mpr (.inl ⟨rfl, refused⟩)⟩

end Variant

section

variable {type : ValueType} {variants : List Variant}

theorem compileVariants_cons_eq_error_iff {variant : Variant}
    {rest : List Variant} {error : CompileError} :
    compileVariants type (variant :: rest) = .error error ↔
      variant.compile type = .error error ∨
        (∃ json, variant.compile type = .ok json) ∧
          compileVariants type rest = .error error := by
  rw [compileVariants]
  cases variant.compile type with
  | error error => simp
  | ok json => cases compileVariants type rest <;> simp [Except.map]

theorem compileVariants_eq_error_iff {error : CompileError} :
    compileVariants type variants = .error error ↔
      type = .object ∧ ∃ variant cause,
        Variant.FirstRefused variants variant cause ∧
          error = ⟨variant.name, cause⟩ := by
  induction variants with
  | nil => simp [compileVariants, Variant.FirstRefused]
  | cons first rest ih =>
      rw [compileVariants_cons_eq_error_iff, Variant.compile_eq_error_iff, ih]
      simp only [Variant.firstRefused_cons_iff]
      constructor
      · rintro (⟨rfl, cause, refused, rfl⟩ |
          ⟨compiled, rfl, variant, cause, others, rfl⟩)
        · exact ⟨rfl, first, cause, .inl ⟨rfl, refused⟩, rfl⟩
        · have sound := Variant.exists_compile_object_iff.mp compiled
          exact ⟨rfl, variant, cause, .inr ⟨sound, others⟩, rfl⟩
      · rintro ⟨rfl, variant, cause, ⟨rfl, refused⟩ | ⟨sound, others⟩, rfl⟩
        · exact .inl ⟨rfl, cause, refused, rfl⟩
        · have compiled := Variant.exists_compile_object_iff.mpr sound
          exact .inr ⟨compiled, rfl, variant, cause, others, rfl⟩

theorem value?_reverse_eq_some_iff {values : Entries Json}
    (compiled : compileVariants type variants = .ok values) {name : String}
    {json : Json} :
    Entries.value? name values.reverse = some json ↔
      ∃ variant, Variant.LastOfName variants variant ∧ variant.name = name ∧
        variant.value.WrittenAs type json := by
  induction variants generalizing values with
  | nil =>
      cases compiled
      simp [Entries.value?, Variant.LastOfName]
  | cons first rest ih =>
      obtain ⟨written, others, hfirst, hrest, rfl⟩ :=
        compileVariants_cons_eq_ok_iff.mp compiled
      -- a use in the rest comes later than the first variant's
      have later : Entries.value? name others.reverse = none ↔
          name ∉ rest.map Variant.name := by
        rw [Entries.value?_eq_none_iff, ← names_of_compileVariants hrest]
        simp [Entries.names]
      rw [List.reverse_cons, Entries.value?_append, Option.or_eq_some_iff,
        ih hrest, later]
      simp only [Variant.lastOfName_cons_iff, ← Variant.compile_eq_ok_iff]
      constructor
      · rintro (⟨variant, last, named, compiled⟩ | ⟨absent, found⟩)
        · exact ⟨variant, .inr last, named, compiled⟩
        · by_cases named : first.name = name
          · simp only [Entries.value?, named, if_true, Option.some.injEq]
              at found
            exact ⟨first, .inl ⟨rfl, named ▸ absent⟩, named, found ▸ hfirst⟩
          · simp [Entries.value?, named] at found
      · rintro ⟨variant, ⟨rfl, absent⟩ | last, rfl, compiled⟩
        · have same := Except.ok.inj (hfirst.symm.trans compiled)
          exact .inr ⟨absent, by simp [Entries.value?, same]⟩
        · exact .inl ⟨variant, last, rfl, compiled⟩

end

namespace Draft

theorem toFlag_eq_error_iff {draft : Draft} {error : CompileError} :
    draft.toFlag = .error error ↔
      compileVariants draft.type draft.variants = .error error := by
  unfold toFlag
  cases compileVariants draft.type draft.variants <;> simp [Except.map]

/--
A draft fails to compile exactly when it is an object's and holds a text that is
refused; the error is that of the first such variant.  A draft that compiles has
its names where they are first used, each with the value of its last use.
-/
theorem toFlag_of_variants (draft : Draft) :
    ((∃ error, draft.toFlag = .error error) ↔
      draft.type = .object ∧
        ∃ variant ∈ draft.variants, ∃ cause, variant.Refused cause) ∧
    (∀ error, draft.toFlag = .error error ↔
      draft.type = .object ∧ ∃ variant cause,
        Variant.FirstRefused draft.variants variant cause ∧
          error = ⟨variant.name, cause⟩) ∧
    ∀ flag, draft.toFlag = .ok flag →
      flag.variants.entries.names =
          (draft.variants.map Variant.name).eraseDups ∧
        ∀ name json, (name, json) ∈ flag.variants.entries ↔
          ∃ variant, Variant.LastOfName draft.variants variant ∧
            variant.name = name ∧
            variant.value.WrittenAs draft.type json := by
  have failure (error : CompileError) :=
    toFlag_eq_error_iff.trans
      (@compileVariants_eq_error_iff draft.type draft.variants error)
  refine ⟨?_, failure, ?_⟩
  · rw [← Variant.exists_firstRefused_iff]
    simp only [failure]
    constructor
    · rintro ⟨-, typed, variant, cause, first, rfl⟩
      exact ⟨typed, variant, cause, first⟩
    · rintro ⟨typed, variant, cause, first⟩
      exact ⟨_, typed, variant, cause, first, rfl⟩
  · intro flag saved
    obtain ⟨values, compiled, rfl⟩ := toFlag_eq_ok saved
    constructor
    · exact (Entries.names_collapse values).trans
        (congrArg _ (names_of_compileVariants compiled))
    · intro name json
      rw [← value?_reverse_eq_some_iff compiled]
      exact Entries.mem_collapse_iff

def brokenDraft : Draft :=
  { new "broken" with
    type := .object
    variants :=
      [⟨"b", .text "[1]"⟩, ⟨"a", .text "\x7b"⟩, ⟨"a", .text "null"⟩,
        ⟨"c", .text "?"⟩] }

def crowdedDraft : Draft :=
  { new "crowded" with
    type := .object
    variants :=
      [⟨"b", .text "[1]"⟩, ⟨"a", .bool true⟩, ⟨"b", .null⟩,
        ⟨"a", .text " \x7b\x7d "⟩, ⟨"", .text "\"?\""⟩] }

theorem toFlag_of_variants_crowded :
    brokenDraft.toFlag = .error ⟨"a", ⟨.endInObject, ⟨1, 1⟩⟩⟩ ∧
      ∃ flag, crowdedDraft.toFlag = .ok flag ∧
        flag.variants.entries.names = ["b", "a", ""] ∧
        ("b", .null) ∈ flag.variants.entries ∧
        ("a", .obj []) ∈ flag.variants.entries ∧
        ("", .str "?") ∈ flag.variants.entries := by
  obtain ⟨-, reported, -⟩ := toFlag_of_variants brokenDraft
  obtain ⟨-, -, placed⟩ := toFlag_of_variants crowdedDraft
  have sound : ∀ other, ¬ Variant.Refused ⟨"b", .text "[1]"⟩ other :=
    Variant.exists_compile_object_iff.mp ⟨.arr [.num (.whole 1 (by decide))],
      by decide +kernel⟩
  have first : Variant.FirstRefused brokenDraft.variants ⟨"a", .text "\x7b"⟩
      ⟨.endInObject, ⟨1, 1⟩⟩ :=
    ⟨[⟨"b", .text "[1]"⟩], _, rfl, by simpa using sound, _, rfl,
      by decide +kernel⟩
  have saved : crowdedDraft.toFlag = .ok
      ⟨.enabled, some "false",
        .ofEntries [("b", .null), ("a", .obj []), ("", .str "?")], none⟩ := by
    decide +kernel
  obtain ⟨names, values⟩ := placed _ saved
  refine ⟨(reported _).mpr ⟨rfl, _, _, first, rfl⟩, _, saved,
    names.trans (by decide), ?_, ?_, ?_⟩
  · exact (values _ _).mpr ⟨⟨"b", .null⟩, ⟨[_, _], _, rfl, by decide⟩,
      rfl, .null⟩
  · exact (values _ _).mpr ⟨⟨"a", .text " \x7b\x7d "⟩,
      ⟨[_, _, _], _, rfl, by decide⟩, rfl,
      .object rfl (by decide +kernel)⟩
  · exact (values _ _).mpr ⟨⟨"", .text "\"?\""⟩,
      ⟨[_, _, _, _], _, rfl, by decide⟩, rfl,
      .object rfl (by decide +kernel)⟩

end Draft

end FeatureFlags
