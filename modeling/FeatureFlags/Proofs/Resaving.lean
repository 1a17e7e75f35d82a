import FeatureFlags.Compile
import FeatureFlags.Proofs.Chains
import FeatureFlags.Proofs.Tables
import FeatureFlags.Reopen

/-!
# Opening a flag and saving it again

`Flag.resaved` is the flag that comes of opening a flag as a draft and compiling
the draft.  Main statements: opening and saving keeps exactly the flags that are
`Lossless`, and what it makes of any flag is kept by opening and saving again.

The text of an object variant has to be read back as the value it was written
from.  `Readable` says so of a flag.
-/

namespace FeatureFlags

namespace Json

def IsCompound (json : Json) : Prop := json.kind = .array ∨ json.kind = .object

def flattened : Json → Json
  | arr items => .str (compact (arr items))
  | obj members => .str (compact (obj members))
  | scalar => scalar

theorem not_isCompound_flattened (json : Json) : ¬ json.flattened.IsCompound := by
  cases json <;> simp [flattened, IsCompound, kind]

theorem flattened_eq_self_iff {json : Json} :
    json.flattened = json ↔ ¬ json.IsCompound := by
  cases json <;> simp [flattened, IsCompound, kind]

end Json

namespace ValueType

def kept (type : ValueType) (json : Json) : Json :=
  match type with
  | object => json
  | _ => json.flattened

theorem kept_of_ne_object {type : ValueType} (h : type ≠ object) (json : Json) :
    type.kept json = json.flattened := by
  cases type with
  | object => exact absurd rfl h
  | boolean | string | number => rfl

theorem kept_eq_self_iff {type : ValueType} {json : Json} :
    type.kept json = json ↔ type = object ∨ ¬ json.IsCompound := by
  by_cases h : type = object
  · simp [h, kept]
  · simp [kept_of_ne_object h, h, Json.flattened_eq_self_iff]

theorem kept_kept (type : ValueType) (json : Json) :
    type.kept (type.kept json) = type.kept json := by
  rw [kept_eq_self_iff]
  by_cases h : type = object
  · exact .inl h
  · rw [kept_of_ne_object h]
    exact .inr json.not_isCompound_flattened

theorem infer_eq_object_iff {json : Json} :
    infer (some json) = object ↔ json.IsCompound := by
  cases json <;> simp [infer, Json.IsCompound, Json.kind]

theorem infer_kept (json : Json) :
    infer (some ((infer (some json)).kept json)) = infer (some json) := by
  cases json <;> rfl

end ValueType

theorem compile_ofJson {type : ValueType} {json : Json}
    (readable : type = .object → Json.parse json.compact = .ok json)
    (name : String) :
    Variant.compile type ⟨name, .ofJson type json⟩ = .ok (type.kept json) := by
  by_cases h : type = .object
  · subst h
    simp [Variant.compile, FormValue.ofJson, readable rfl, Except.mapError,
      ValueType.kept]
  · rw [ValueType.kept_of_ne_object h]
    cases type with
    | object => exact absurd rfl h
    | boolean | string | number => cases json <;> rfl

theorem compileVariants_cons_eq_ok_iff {type : ValueType} {variant : Variant}
    {rest : List Variant} {values : Entries Json} :
    compileVariants type (variant :: rest) = .ok values ↔
      ∃ json others, variant.compile type = .ok json ∧
        compileVariants type rest = .ok others ∧
        values = (variant.name, json) :: others := by
  rw [compileVariants]
  cases variant.compile type with
  | error error => simp
  | ok json => cases compileVariants type rest <;> simp [Except.map, eq_comm]

theorem compileVariants_map {type : ValueType} {entries : Entries Json}
    (readable : type = .object →
      ∀ entry ∈ entries, Json.parse entry.2.compact = .ok entry.2) :
    compileVariants type
        (entries.map fun entry => ⟨entry.1, .ofJson type entry.2⟩) =
      .ok (entries.mapValues type.kept) := by
  induction entries with
  | nil => rfl
  | cons entry rest ih =>
      have first := compile_ofJson
        (fun object => readable object entry (by simp)) entry.1
      have others := ih fun object other hother =>
        readable object other (List.mem_cons_of_mem _ hother)
      simp only [List.map_cons, compileVariants, first, others]
      rfl

theorem expressible_of_mem_toBranch {rules : List Rule}
    (regular : ∀ rule ∈ rules, rule.condition.operator.Regular) :
    ∀ branch ∈ rules.map Rule.toBranch, Logic.Expressible branch.condition := by
  intro branch hbranch
  obtain ⟨rule, hrule, rfl⟩ := List.mem_map.mp hbranch
  exact Logic.expressible_ofCondition (regular rule hrule)

/-! ## Flags that are kept -/

namespace Flag

def Readable (flag : Flag) : Prop :=
  ∀ entry ∈ flag.variants.entries,
    Json.parse entry.2.compact = .ok entry.2

instance (flag : Flag) : Decidable flag.Readable :=
  inferInstanceAs (Decidable (∀ entry ∈ flag.variants.entries, _))

/--
The default variant has a name, or it is empty where the first variant, if there
is one, has none either.
-/
def KeepsDefault (flag : Flag) : Prop :=
  (∃ name, name ≠ "" ∧ flag.defaultVariant = some name) ∨
    (flag.defaultVariant = some "" ∧
      (flag.variants.entries = [] ∨ flag.firstVariantName? = some ""))

/-- The first value is an array or object, or no value is. -/
def KeepsValues (flag : Flag) : Prop :=
  (∃ first, flag.variants.first? = some first ∧ first.2.IsCompound) ∨
    ∀ entry ∈ flag.variants.entries, ¬ entry.2.IsCompound

/-- There is no targeting, or it is a chain of rules that the form can express. -/
def KeepsTargeting (flag : Flag) : Prop :=
  flag.targeting = none ∨
    ∃ items, flag.targeting = some (Logic.call Logic.ifKey items) ∧
      2 ≤ items.length ∧ Logic.Alternating items

structure Lossless (flag : Flag) : Prop where
  default : flag.KeepsDefault
  values : flag.KeepsValues
  targeting : flag.KeepsTargeting

/-! ## The resaved flag -/

def draftChain (flag : Flag) : Logic.Chain where
  branches := flag.draftRules.map Rule.toBranch
  fallback := flag.chainSplit.fallback.map Logic.operandText

def resaved (flag : Flag) : Flag where
  state := flag.state
  defaultVariant := some flag.openDefault
  variants := flag.variants.mapValues flag.inferredType.kept
  targeting := flag.chainItems?.map fun _ => flag.draftChain.toJson

theorem chain_toDraft (flag : Flag) (key : String) :
    (flag.toDraft key).chain = flag.draftChain := by
  unfold Draft.chain draftChain toDraft
  cases flag.chainSplit.fallback <;> rfl

theorem targeting?_toDraft (flag : Flag) (key : String) :
    (flag.toDraft key).targeting? = flag.resaved.targeting := by
  rw [Draft.targeting?, chain_toDraft]
  cases h : flag.chainItems? <;> simp [toDraft, resaved, h]

theorem toFlag_toDraft {flag : Flag}
    (readable : flag.inferredType = .object → flag.Readable) (key : String) :
    (flag.toDraft key).toFlag = .ok flag.resaved := by
  have variants : compileVariants (flag.toDraft key).type
      (flag.toDraft key).variants =
        .ok (flag.variants.entries.mapValues flag.inferredType.kept) :=
    compileVariants_map readable
  have state : State.ofBool flag.state.isEnabled = flag.state := by
    cases flag.state <;> rfl
  rw [Draft.toFlag, variants, Except.map, targeting?_toDraft,
    Table.ofEntries_mapValues]
  simp only [toDraft, state]
  rfl

@[simp] theorem nonempty?_empty : nonempty? (some "") = none := rfl

theorem nonempty?_of_ne_empty {name : String} (h : name ≠ "") :
    nonempty? (some name) = some name := by
  simp [nonempty?, Option.filter, h]

theorem ne_empty_of_nonempty? {text : Option String} {name : String}
    (h : nonempty? text = some name) : name ≠ "" := by
  simpa using (Option.filter_eq_some_iff.mp h).2

theorem firstVariantName?_getD_eq_empty_iff {flag : Flag} :
    flag.firstVariantName?.getD "" = "" ↔
      flag.variants.entries = [] ∨ flag.firstVariantName? = some "" := by
  unfold firstVariantName? Table.first?
  cases flag.variants.entries <;> simp

theorem some_openDefault_iff {flag : Flag} :
    some flag.openDefault = flag.defaultVariant ↔ flag.KeepsDefault := by
  unfold KeepsDefault openDefault
  cases flag.defaultVariant with
  | none => simp
  | some name =>
      by_cases h : name = ""
      · subst h
        simp [firstVariantName?_getD_eq_empty_iff]
      · simp [h, nonempty?_of_ne_empty h]

theorem firstVariantName?_of_openDefault_eq_empty {flag : Flag}
    (h : flag.openDefault = "") : flag.firstVariantName?.getD "" = "" := by
  unfold openDefault at h
  cases hname : nonempty? flag.defaultVariant with
  | none => simpa [hname] using h
  | some name =>
      rw [hname, Option.some_or, Option.getD_some] at h
      exact absurd h (ne_empty_of_nonempty? hname)

theorem firstVariantName?_resaved (flag : Flag) :
    flag.resaved.firstVariantName? = flag.firstVariantName? := by
  simp [firstVariantName?, Table.first?, resaved, Table.mapValues,
    Entries.mapValues, Function.comp_def]

theorem keepsDefault_resaved (flag : Flag) : flag.resaved.KeepsDefault := by
  by_cases h : flag.openDefault = ""
  · right
    refine ⟨congrArg some h, ?_⟩
    rw [← firstVariantName?_getD_eq_empty_iff, firstVariantName?_resaved]
    exact firstVariantName?_of_openDefault_eq_empty h
  · exact .inl ⟨flag.openDefault, h, rfl⟩

theorem inferredType_eq_object_iff {flag : Flag} :
    flag.inferredType = .object ↔
      ∃ first, flag.variants.first? = some first ∧ first.2.IsCompound := by
  unfold inferredType
  cases flag.variants.first? with
  | none => simp [ValueType.infer]
  | some first => simp [ValueType.infer_eq_object_iff]

theorem mapValues_kept_iff {flag : Flag} :
    flag.variants.mapValues flag.inferredType.kept = flag.variants ↔
      flag.KeepsValues := by
  rw [Table.mapValues_eq_self_iff, KeepsValues, ← inferredType_eq_object_iff]
  by_cases h : flag.inferredType = .object <;>
    simp [h, ValueType.kept_eq_self_iff]

theorem inferredType_resaved (flag : Flag) :
    flag.resaved.inferredType = flag.inferredType := by
  cases h : flag.variants.entries with
  | nil => simp [inferredType, resaved, Table.first?, Table.mapValues,
      Entries.mapValues, h]
  | cons entry rest =>
      simp [inferredType, resaved, Table.first?, Table.mapValues,
        Entries.mapValues, h, ValueType.infer_kept]

theorem keepsValues_resaved (flag : Flag) : flag.resaved.KeepsValues := by
  rw [← mapValues_kept_iff, inferredType_resaved, Table.mapValues_eq_self_iff]
  intro entry hentry
  obtain ⟨stored, -, rfl⟩ := List.mem_map.mp hentry
  exact flag.inferredType.kept_kept stored.2

theorem readable_resaved {flag : Flag} (readable : flag.Readable)
    (object : flag.resaved.inferredType = .object) :
    flag.resaved.Readable := by
  rw [inferredType_resaved] at object
  intro entry hentry
  obtain ⟨stored, hstored, rfl⟩ := List.mem_map.mp hentry
  rw [object]
  exact readable stored hstored

theorem chainItems?_eq_some {flag : Flag} {items : List Json}
    (h : flag.targeting = some (Logic.call Logic.ifKey items))
    (nonempty : items ≠ []) : flag.chainItems? = some items := by
  simp [chainItems?, h, Logic.chainItems?, Logic.call, Logic.single,
    Json.member?, Entries.value?, nonempty]

theorem chainSplit_of_chainItems? {flag : Flag} {items : List Json}
    (found : flag.chainItems? = some items) :
    flag.chainSplit = Logic.split items := by
  rw [chainSplit, found, Option.getD_some]

theorem draftRules_ne_nil (flag : Flag) : flag.draftRules ≠ [] := by
  unfold draftRules
  split
  · simp
  · rename_i nonempty
    simpa using nonempty

theorem regular_of_mem_draftRules {flag : Flag} {rule : Rule}
    (h : rule ∈ flag.draftRules) : rule.condition.operator.Regular := by
  unfold draftRules at h
  split at h
  · rw [List.mem_singleton.mp h]
    exact Logic.regular_blank
  · obtain ⟨pair, -, rfl⟩ := List.mem_map.mp h
    exact Logic.regular_toCondition pair.1

theorem keepsTargeting_of_chain {flag : Flag} {rules : List Rule}
    {fallback : Option String} (nonempty : rules ≠ [])
    (regular : ∀ rule ∈ rules, rule.condition.operator.Regular)
    (h : flag.targeting =
      some (Logic.Chain.toJson ⟨rules.map Rule.toBranch, fallback⟩)) :
    flag.KeepsTargeting := by
  refine .inr ⟨_, h, ?_, ?_⟩
  · exact Logic.two_le_length_items (by simpa using nonempty)
  · exact Logic.alternating_items (expressible_of_mem_toBranch regular)

theorem keepsTargeting_resaved (flag : Flag) : flag.resaved.KeepsTargeting := by
  cases h : flag.chainItems? with
  | none => exact .inl (by simp [resaved, h])
  | some items =>
      apply keepsTargeting_of_chain flag.draftRules_ne_nil
        fun rule => regular_of_mem_draftRules
      simp [resaved, h]
      rfl

theorem draftChain_eq_reread {flag : Flag} {items : List Json}
    (h : flag.chainItems? = some items) (conditions : 2 ≤ items.length) :
    flag.draftChain = (Logic.split items).reread := by
  have pairs := Logic.pairs_split_ne_nil conditions
  have split := chainSplit_of_chainItems? h
  rw [draftChain, draftRules, split]
  cases hpairs : (Logic.split items).pairs with
  | nil => exact absurd hpairs pairs
  | cons pair rest =>
      simp [Logic.Split.reread, hpairs, Rule.toBranch, ruleOf]

theorem targeting_resaved_iff {flag : Flag} :
    flag.resaved.targeting = flag.targeting ↔ flag.KeepsTargeting := by
  constructor
  · intro h
    -- what was saved has the kept shape, so the targeting equal to it has it too
    simpa [KeepsTargeting, h] using flag.keepsTargeting_resaved
  · rintro (h | ⟨items, h, conditions, alternating⟩)
    · simp [resaved, chainItems?, h]
    · have nonempty : items ≠ [] := by
        rintro rfl
        simp at conditions
      have found := chainItems?_eq_some h nonempty
      have same := (Logic.items_reread_iff items).mpr alternating
      simp [resaved, found, h, draftChain_eq_reread found conditions,
        Logic.Chain.toJson, same]

/-! ## Main statements -/

theorem lossless_resaved (flag : Flag) : flag.resaved.Lossless :=
  ⟨flag.keepsDefault_resaved, flag.keepsValues_resaved,
    flag.keepsTargeting_resaved⟩

theorem resaved_eq_self_iff {flag : Flag} :
    flag.resaved = flag ↔ flag.Lossless := by
  constructor
  · intro h
    exact h ▸ flag.lossless_resaved
  · intro h
    have default := some_openDefault_iff.mpr h.default
    have values := mapValues_kept_iff.mpr h.values
    have targeting := targeting_resaved_iff.mpr h.targeting
    cases flag
    simp only [resaved] at *
    rw [default, values, targeting]

theorem toFlag_toDraft_of_lossless {flag : Flag} (lossless : flag.Lossless)
    (readable : flag.inferredType = .object → flag.Readable) (key : String) :
    (flag.toDraft key).toFlag = .ok flag := by
  rw [toFlag_toDraft readable, resaved_eq_self_iff.mpr lossless]

/-- Opening and saving keeps exactly the lossless flags. -/
theorem toFlag_toDraft_eq_self_iff {flag : Flag} (readable : flag.Readable)
    (key : String) :
    (flag.toDraft key).toFlag = .ok flag ↔ flag.Lossless := by
  rw [toFlag_toDraft (fun _ => readable), Except.ok.injEq]
  exact resaved_eq_self_iff

def edgeFlag : Flag where
  state := .enabled
  defaultVariant := some ""
  variants := .ofEntries
    [("", .obj [("a", .arr [.bool true, .null])]), ("off", .arr []),
      ("on", .str "\n")]
  targeting := some (Logic.call "if"
    [.obj [("in", .arr
        [.obj [("var", .str "")], .arr [.str "", .str "b c"]])], .str "off",
      .obj [("!", .obj [("in", .arr
        [.obj [("var", .str "os")], .str "a,b"])])], .str "",
      .obj [("sem_ver", .arr
        [.obj [("var", .str "app")], .str "=>", .str ""])], .str "gone",
      .obj [("in_list", .arr
        [.obj [("var", .str "land")], .str " x"])], .str "on",
      .str "gone"])

theorem toFlag_toDraft_eq_self_iff_edge :
    edgeFlag.Readable ∧
      ((edgeFlag.toDraft "edge").toFlag = .ok edgeFlag ↔ edgeFlag.Lossless) ∧
      (edgeFlag.toDraft "edge").toFlag = .ok edgeFlag := by
  have readable : edgeFlag.Readable := by decide +kernel
  exact ⟨readable, toFlag_toDraft_eq_self_iff readable "edge",
    by decide +kernel⟩

/-- What opening and saving makes of a flag is kept ever after. -/
theorem resaving_settles {flag : Flag} (readable : flag.Readable)
    (key : String) :
    ∃ saved, (flag.toDraft key).toFlag = .ok saved ∧
      (saved.toDraft key).toFlag = .ok saved :=
  ⟨flag.resaved, toFlag_toDraft (fun _ => readable) key,
    toFlag_toDraft_of_lossless flag.lossless_resaved
      (readable_resaved readable) key⟩

def mixedFlag : Flag where
  state := .disabled
  defaultVariant := none
  variants := .ofEntries
    [("on", .bool true), ("off", .arr [.null]), ("", .obj [("a", .obj [])])]
  targeting := some (.obj [("if", .arr
    [.str "odd", .bool false,
      .obj [("!", .obj [("==", .arr [])])], .arr [.str "on", .null],
      .obj [("in", .arr [.null, .arr [.str " a, b", .bool true]]),
        ("x", .null)], .str "off",
      .obj [("last", .null)]])])

theorem resaving_settles_mixed :
    mixedFlag.Readable ∧ (mixedFlag.toDraft "mixed").toFlag ≠ .ok mixedFlag ∧
      ∃ saved, (mixedFlag.toDraft "mixed").toFlag = .ok saved ∧
        (saved.toDraft "mixed").toFlag = .ok saved := by
  have readable : mixedFlag.Readable := by decide +kernel
  exact ⟨readable, by decide +kernel, resaving_settles readable "mixed"⟩

end Flag

end FeatureFlags
