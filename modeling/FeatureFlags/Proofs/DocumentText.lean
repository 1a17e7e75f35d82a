import FeatureFlags.Proofs.Nesting
import FeatureFlags.Proofs.RecordText
import FeatureFlags.Proofs.ValidDocuments

/-!
# Documents in a text

A document puts four objects around the value of a variant: the root, the flags,
the flag and its variants.  So a value that fits a text of its own need not fit
the text of a document.  Main statement: the document of a valid draft is read
back from its text exactly when its values nest four levels less deep than a
text may, provided that their numbers are read back.
-/

namespace FeatureFlags

open Shape (Reader Record Keeper)

namespace Flag

theorem forall_mem_optionalMember {P : String × Json → Prop} {name : String}
    {json : Option Json} :
    (∀ member ∈ optionalMember name json, P member) ↔
      ∀ tree, json = some tree → P (name, tree) := by
  cases json <;> simp [optionalMember]

theorem ofJson_toJson {flag : Flag} (present : flag.targeting ≠ some .null) :
    reader.ofJson flag.toJson = .ok flag := by
  obtain ⟨state, default, variants, targeting⟩ := flag
  have readVariants : (Reader.json.table.nullAs .empty).ofJson
      (.obj variants.entries) = .ok variants := by
    rw [ofJson_variants, Table.ofEntries_entries]
  apply Record.ofMembers_eq_ok_iff.mpr
  refine Record.build_judged (Record.build_field (Record.build_judged
    (Record.build_field rfl rfl (ofJson_state state)) ?_) ?_ readVariants) ?_
  · cases default <;> cases targeting <;> rfl
  · cases default <;> rfl
  · cases targeting with
    | none => cases default <;> rfl
    | some tree => cases default <;> cases tree <;> first | rfl | simp at present

end Flag

namespace Document

theorem ofJson_toJson {document : Document}
    (present : ∀ entry ∈ document.flags.entries,
      entry.2.targeting ≠ some .null) :
    ofJson document.toJson = .ok document := by
  obtain ⟨flags⟩ := document
  have read : Reader.readMembers Flag.reader.ofJson
      (flags.entries.mapValues Flag.toJson) =
        .ok (flags.entries.mapValues id) :=
    Reader.readMembers_mapValues fun entry hentry =>
      Flag.ofJson_toJson (present entry hentry)
  have same : flags.entries.mapValues id = flags.entries :=
    Entries.mapValues_eq_self_iff.mpr fun _ _ => rfl
  rw [same] at read
  rw [toJson, ofJson_of_readMembers rfl read,
    Entries.collapse_of_nodup flags.nodup_names, SortedTable.ofEntries_entries]

end Document

namespace Flag

/-- The parts of the flag are read back from texts that nest so deep. -/
structure Legible (depth : Nat) (flag : Flag) : Prop where
  variants : ∀ variant ∈ flag.variants.entries, Json.Legible depth variant.2
  targeting : ∀ tree, flag.targeting = some tree →
    tree ≠ .null ∧ Json.Legible (depth + 1) tree

theorem Legible.present {depth : Nat} {flag : Flag}
    (legible : flag.Legible depth) : flag.targeting ≠ some .null := by
  intro null
  exact (legible.targeting .null null).1 rfl

variable {style : Json.Style} {depth : Nat}

theorem recovers_default (name : String) :
    Json.Recovers style (Reader.text.nullable.keep depth) (.str name) :=
  Keeper.recovers_nullable (Keeper.recovers_text depth name)
    (Shape.begins_chars (.str depth name) Json.noConfusion style)

variable (spaced : style.Spaced)

include spaced

theorem recovers_variants {variants : Table Json}
    (legible : ∀ variant ∈ variants.entries, Json.Legible depth variant.2) :
    Json.Recovers style
      ((Reader.json.table.nullAs .empty).keep (depth + 1))
      (.obj variants.entries) := by
  apply Keeper.recovers_nullable
  · apply Keeper.recovers_table spaced variants.distinct
    intro variant hvariant
    exact Reader.recovers_ofTree spaced (legible variant hvariant) rfl
  · intro level
    exact ⟨_, _, Json.chars_obj .., rfl, by decide⟩

theorem recovers_targeting {tree : Json} (present : tree ≠ .null)
    (legible : Json.Legible depth tree) :
    Json.Recovers style (Reader.json.nullable.keep depth) tree :=
  Keeper.recovers_nullable (Reader.recovers_ofTree spaced legible rfl)
    (Shape.begins_chars legible present style)

theorem recovers_toJson {flag : Flag} (legible : flag.Legible depth) :
    Json.Recovers style (reader.keep (depth + 2)) flag.toJson := by
  have state : Json.Recovers style (State.reader.keep (depth + 1))
      flag.state.toJson :=
    Reader.recovers_ofTree spaced (.str _ _) (ofJson_state flag.state)
  apply Record.recovers_reader spaced ?_ ?_ (ofJson_toJson legible.present)
  · obtain ⟨state, default, variants, targeting⟩ := flag
    cases default <;> cases targeting <;>
      simp [Entries.names, optionalMember]
  · simp only [List.forall_mem_cons, List.forall_mem_append,
      forall_mem_optionalMember]
    refine ⟨⟨_, rfl, state⟩, ?_,
      ⟨_, rfl, recovers_variants spaced legible.variants⟩, ?_⟩
    · intro tree written
      obtain ⟨name, -, rfl⟩ := Option.map_eq_some_iff.mp written
      exact ⟨_, rfl, recovers_default name⟩
    · intro tree given
      obtain ⟨present, legible⟩ := legible.targeting tree given
      exact ⟨_, rfl, recovers_targeting spaced present legible⟩

end Flag

namespace Document

/-- How deep a value may nest inside the four objects around it. -/
def valueDepth : Nat := Json.depthLimit - 4

theorem recovers_toJson {style : Json.Style} (spaced : style.Spaced)
    {depth : Nat} {document : Document}
    (legible : ∀ entry ∈ document.flags.entries, entry.2.Legible depth) :
    Json.Recovers style (reader.keep (depth + 4)) document.toJson := by
  have read := ofJson_toJson fun entry hentry => (legible entry hentry).present
  apply Record.recovers_reader spaced ?_ ?_ read
  · simp [Entries.names]
  · rw [List.forall_mem_singleton]
    refine ⟨_, rfl, Keeper.recovers_table spaced ?_ ?_⟩
    · rw [Entries.names_mapValues]
      exact document.flags.nodup_names
    · intro written hwritten
      obtain ⟨entry, hentry, rfl⟩ := List.mem_map.mp hwritten
      exact Flag.recovers_toJson spaced (legible entry hentry)

theorem ofText_text {document : Document}
    (legible : ∀ entry ∈ document.flags.entries, entry.2.Legible valueDepth) :
    ofText document.text = .ok document :=
  Reader.ofText_eq_ok (Json.toList_indented _)
    (recovers_toJson Json.Style.spaced_indented legible)
    (ofJson_toJson fun entry hentry => (legible entry hentry).present)

end Document

/-! ## What a text that is read can hold -/

namespace Flag

theorem nesting_lt_of_ofJson_variants {json : Json} {variants : Table Json}
    (read : (Reader.json.table.nullAs .empty).ofJson json = .ok variants) :
    ∀ variant ∈ variants.entries, variant.2.nesting < json.nesting := by
  cases json with
  | null =>
      cases read
      exact List.forall_mem_nil _
  | obj members =>
      rw [ofJson_variants] at read
      cases read
      intro variant hvariant
      exact Json.nesting_lt_of_mem_obj (Entries.mem_of_mem_collapse hvariant)
  | _ => exact nomatch read

theorem nesting_lt_of_ofJson {json : Json} {flag : Flag}
    (read : reader.ofJson json = .ok flag) :
    ∀ variant ∈ flag.variants.entries,
      variant.2.nesting + 1 < json.nesting := by
  obtain ⟨source, built, inside⟩ := Record.exists_source_of_ofJson read
  -- field by field, from the last one back
  obtain ⟨_, targeting, three, -, rfl⟩ := Record.build_eq_ok built
  obtain ⟨_, variants, two, judged, rfl⟩ := Record.build_eq_ok three
  obtain ⟨_, default, one, -, rfl⟩ := Record.build_eq_ok two
  obtain ⟨_, state, none, -, rfl⟩ := Record.build_eq_ok one
  cases none
  intro variant hvariant
  rcases Record.judgeField_eq_ok judged with ⟨field, found, read⟩ | ⟨-, stands⟩
  · have := nesting_lt_of_ofJson_variants read variant hvariant
    have := inside _ field found
    omega
  · cases stands
    exact absurd hvariant List.not_mem_nil

theorem shallow_keep : reader.keep.Shallow := by
  have tree : Reader.json.keep.Shallow := Reader.shallow_ofTree _
  apply Keeper.shallow_record
  change ∀ field ∈ [_, _, _, _], _
  simp only [List.forall_mem_cons]
  exact ⟨Reader.shallow_ofTree _, Keeper.shallow_text.nullable,
    tree.table.nullable, tree.nullable, List.forall_mem_nil _⟩

end Flag

namespace Document

theorem exists_tree_of_ofJson_flags {json : Json} {flags : SortedTable Flag}
    (read : (Flag.reader.table.map fun table =>
      SortedTable.ofEntries table.entries).ofJson json = .ok flags) :
    ∀ entry ∈ flags.entries, ∃ tree, tree.nesting < json.nesting ∧
      Flag.reader.ofJson tree = .ok entry.2 := by
  cases json with
  | obj members =>
      change ((Reader.readMembers Flag.reader.ofJson members).map
        Table.ofEntries).map _ = _ at read
      cases taken : Reader.readMembers Flag.reader.ofJson members with
      | error mismatch =>
          rw [taken] at read
          exact nomatch read
      | ok entries =>
          rw [taken] at read
          cases read
          intro entry hentry
          have hmem := Entries.mem_of_mem_collapse
            (SortedTable.mem_of_mem_ofEntries hentry)
          obtain ⟨tree, inside, read⟩ :=
            Reader.exists_mem_of_readMembers taken entry hmem
          exact ⟨tree, Json.nesting_lt_of_mem_obj inside, read⟩
  | _ => exact nomatch read

theorem nesting_lt_of_ofJson {json : Json} {document : Document}
    (read : ofJson json = .ok document) :
    ∀ entry ∈ document.flags.entries, ∀ variant ∈ entry.2.variants.entries,
      variant.2.nesting + 3 < json.nesting := by
  obtain ⟨source, built, inside⟩ := Record.exists_source_of_ofJson read
  obtain ⟨_, flags, none, judged, rfl⟩ := Record.build_eq_ok built
  cases none
  rcases Record.judgeField_eq_ok judged with ⟨field, found, read⟩ | ⟨-, stands⟩
  · intro entry hentry variant hvariant
    obtain ⟨tree, inner, taken⟩ := exists_tree_of_ofJson_flags read entry hentry
    have := Flag.nesting_lt_of_ofJson taken variant hvariant
    have := inside _ field found
    omega
  · cases stands

theorem shallow_keep : reader.keep.Shallow := by
  apply Keeper.shallow_record
  change ∀ field ∈ [_], _
  rw [List.forall_mem_singleton]
  exact Flag.shallow_keep.table

theorem nesting_le_of_ofText {text : String} {document : Document}
    (read : ofText text = .ok document) :
    ∀ entry ∈ document.flags.entries, ∀ variant ∈ entry.2.variants.entries,
      variant.2.nesting ≤ valueDepth := by
  obtain ⟨tree, nests, taken⟩ := Reader.exists_tree_of_ofText shallow_keep read
  intro entry hentry variant hvariant
  have inside := nesting_lt_of_ofJson taken entry hentry variant hvariant
  rw [valueDepth]
  omega

end Document

namespace Logic

open Json (Legible)

variable {depth : Nat}

theorem legible_single {key : String} {content : Json}
    (h : Legible depth content) : Legible (depth + 1) (single key content) := by
  refine .obj (by simp [Entries.names]) ?_
  rwa [List.forall_mem_singleton]

theorem legible_call {operator : String} {operands : List Json}
    (each : ∀ operand ∈ operands, Legible depth operand) :
    Legible (depth + 2) (call operator operands) :=
  legible_single (.arr each)

theorem legible_reference (path : String) :
    Legible (depth + 1) (reference path) := legible_single (.str depth path)

theorem legible_ofTexts (texts : List String) :
    Legible (depth + 1) (.ofTexts texts) :=
  .arr (List.forall_mem_map.mpr fun text _ => .str depth text)

theorem legible_membership {subject haystack : Json}
    (hsubject : Legible depth subject) (hhaystack : Legible depth haystack) :
    Legible (depth + 2) (membership subject haystack) := by
  apply legible_call
  simp only [List.forall_mem_cons]
  exact ⟨hsubject, hhaystack, List.forall_mem_nil _⟩

theorem legible_ofCondition (condition : Condition) :
    Legible (depth + 4) (ofCondition condition) := by
  obtain ⟨name, operator, comparator, value⟩ := condition
  cases operator with
  | semVer =>
      apply legible_call
      simp only [List.forall_mem_cons]
      exact ⟨legible_reference name, .str _ _, .str _ _, List.forall_mem_nil _⟩
  | inList =>
      exact legible_membership (legible_reference name) (legible_ofTexts _)
  | notInList =>
      exact legible_single
        (legible_membership (legible_reference name) (legible_ofTexts _))
  | inString => exact legible_membership (legible_reference name) (.str _ _)
  | notInString =>
      exact legible_single
        (legible_membership (legible_reference name) (.str _ _))
  | endsWith | startsWith | equals | other =>
      apply legible_call
      simp only [List.forall_mem_cons]
      exact ⟨legible_reference name, .str _ _, List.forall_mem_nil _⟩

theorem legible_items {chain : Chain}
    (each : ∀ branch ∈ chain.branches, Legible depth branch.condition) :
    ∀ item ∈ chain.items, Legible depth item := by
  obtain ⟨branches, fallback⟩ := chain
  simp only [Chain.items, List.forall_mem_append, List.forall_mem_flatMap,
    List.forall_mem_cons]
  constructor
  · intro branch hbranch
    exact ⟨each branch hbranch, .str _ _, List.forall_mem_nil _⟩
  · cases fallback with
    | none => exact List.forall_mem_nil _
    | some variant => exact List.forall_mem_singleton.mpr (.str _ _)

end Logic

theorem Draft.legible_chain (draft : Draft) {depth : Nat} :
    Json.Legible (depth + 6) draft.chain.toJson := by
  apply Logic.legible_call
  apply Logic.legible_items
  intro branch hbranch
  obtain ⟨rule, -, rfl⟩ := List.mem_map.mp hbranch
  exact Logic.legible_ofCondition rule.condition

theorem distinct_of_compile {type : ValueType} {variant : Variant} {json : Json}
    (h : variant.compile type = .ok json) : json.Distinct := by
  unfold Variant.compile at h
  split at h
  · exact Json.distinct_of_parse (Shape.mapError_eq_ok_iff.mp h)
  · rename_i value _ _
    cases h
    cases variant.value <;> trivial

theorem distinct_of_compileVariants {type : ValueType} {variants : List Variant}
    {values : Entries Json} (h : compileVariants type variants = .ok values) :
    ∀ value ∈ values, value.2.Distinct := by
  induction variants generalizing values with
  | nil =>
      cases h
      exact List.forall_mem_nil _
  | cons variant variants ih =>
      obtain ⟨json, others, compiled, hrest, rfl⟩ :=
        compileVariants_cons_eq_ok_iff.mp h
      exact List.forall_mem_cons.mpr ⟨distinct_of_compile compiled, ih hrest⟩

/-! ## Main statement -/

def Document.values (document : Document) : List Json :=
  document.flags.entries.flatMap fun entry =>
    entry.2.variants.entries.map Prod.snd

theorem Document.forall_mem_values {P : Json → Prop} {document : Document} :
    (∀ value ∈ document.values, P value) ↔
      ∀ entry ∈ document.flags.entries, ∀ variant ∈ entry.2.variants.entries,
        P variant.2 := by
  simp only [values, List.forall_mem_flatMap, List.forall_mem_map]

namespace Draft

theorem legible_of_toFlag {draft : Draft} {flag : Flag} {depth : Nat}
    (saved : draft.toFlag = .ok flag) (room : 5 ≤ depth)
    (readsBack : ∀ variant ∈ flag.variants.entries,
      ∀ n ∈ variant.2.numbers, n.ReadsBack)
    (nests : ∀ variant ∈ flag.variants.entries, variant.2.nesting ≤ depth) :
    flag.Legible depth := by
  obtain ⟨values, compiled, rfl⟩ := toFlag_eq_ok saved
  constructor
  · intro variant hvariant
    have distinct := distinct_of_compileVariants compiled variant
      (Entries.mem_of_mem_collapse hvariant)
    exact Json.legible_of_nesting_le distinct (readsBack variant hvariant)
      (nests variant hvariant)
  · intro tree given
    obtain ⟨-, same⟩ := Option.ite_none_right_eq_some.mp given
    cases same
    obtain ⟨depth, rfl⟩ := Nat.exists_eq_add_of_le' room
    exact ⟨Json.noConfusion, draft.legible_chain⟩

/--
The document of a valid draft is read back from its text exactly when its values
nest no deeper than four levels less than a text may.
-/
theorem ofText_text_iff_of_valid {draft : Draft}
    (valid : draft.validate.valid = true) :
    ∃ document, draft.compile = .ok document ∧
      ((∀ value ∈ document.values, ∀ n ∈ value.numbers, n.ReadsBack) →
        (Document.ofText document.text = .ok document ↔
          ∀ value ∈ document.values,
            value.nesting ≤ Document.valueDepth)) := by
  obtain ⟨flag, saved, -⟩ := toFlag_of_valid valid
  refine ⟨.single draft.key flag, by rw [compile, saved, Except.map], ?_⟩
  simp only [Document.forall_mem_values]
  intro readsBack
  constructor
  · exact Document.nesting_le_of_ofText
  · intro nests
    apply Document.ofText_text
    intro entry hentry
    obtain rfl := List.mem_singleton.mp hentry
    exact legible_of_toFlag saved (by decide) (readsBack _ hentry)
      (nests _ hentry)

def nestedQuarter : Nat → Json
  | 0 => .num (.real ⟨false, 4503599627370496, 1020, by decide⟩)
  | depth + 1 => .arr [nestedQuarter depth]

theorem nesting_nestedQuarter (depth : Nat) : (nestedQuarter depth).nesting = depth := by
  induction depth with
  | zero => rfl
  | succ depth ih => simp [nestedQuarter, Json.nesting, Json.itemsNesting, ih]

theorem readsBack_nestedQuarter (depth : Nat) :
    ∀ n ∈ (nestedQuarter depth).numbers, n.ReadsBack := by
  induction depth with
  | zero => decide +kernel
  | succ depth ih => simpa [nestedQuarter, Json.numbers, Json.itemsNumbers] using ih

theorem distinct_nestedQuarter (depth : Nat) : (nestedQuarter depth).Distinct := by
  induction depth with
  | zero => trivial
  | succ depth ih => exact ⟨ih, trivial⟩

def nestedDraft (depth : Nat) : Draft where
  key := "f"
  description := none
  enabled := true
  type := .object
  variants := [⟨"a", .text (nestedQuarter depth).compact⟩]
  defaultVariant := "a"
  hasTargeting := true
  rules := [⟨{ name := "os", operator := .notInList, value := "x, y" }, "a"⟩]
  hasDefaultRule := true
  defaultRule := "a"

theorem toFlag_nestedDraft {depth : Nat} (fits : depth ≤ Json.depthLimit) :
    (nestedDraft depth).toFlag =
      .ok ⟨.enabled, some "a", .ofEntries [("a", nestedQuarter depth)],
        (nestedDraft depth).targeting?⟩ := by
  have parsed := Json.parse_compact (Json.legible_of_nesting_le
    (distinct_nestedQuarter depth) (readsBack_nestedQuarter depth)
    (by rwa [nesting_nestedQuarter]))
  have compiled : compileVariants .object (nestedDraft depth).variants =
      .ok [("a", nestedQuarter depth)] := by
    simp [nestedDraft, compileVariants, Variant.compile, parsed,
      Except.mapError, Except.map]
  have type : (nestedDraft depth).type = .object := rfl
  rw [toFlag, type, compiled]
  rfl

theorem valid_nestedDraft {depth : Nat} (fits : depth ≤ Json.depthLimit) :
    (nestedDraft depth).validate.valid = true := by
  rw [validate_of_toFlag (toFlag_nestedDraft fits),
    Report.valid_ofViolations_iff]
  have names : secondUses ((nestedDraft depth).variants.map Variant.name) = [] :=
    rfl
  have key : (nestedDraft depth).key ≠ "" := by simp [nestedDraft]
  have variants : (nestedDraft depth).variantFindings
      [("a", nestedQuarter depth)] = [] := by
    simp [variantFindings]
  have default : (nestedDraft depth).defaultVariant ∈ ["a"] :=
    List.mem_singleton.mpr rfl
  have targeting : (nestedDraft depth).targetingFindings ["a"] = [] := rfl
  change findings _ [("a", nestedQuarter depth)] = []
  simp [findings, names, key, variants, default, targeting]

theorem values_nestedDraft {depth : Nat} {document : Document}
    (fits : depth ≤ Json.depthLimit)
    (compiled : (nestedDraft depth).compile = .ok document) :
    document.values = [nestedQuarter depth] := by
  rw [compile, toFlag_nestedDraft fits] at compiled
  cases compiled
  rfl

theorem ofText_text_iff_of_valid_nested :
    (nestedDraft 123).validate.valid = true ∧
      ∃ document, (nestedDraft 123).compile = .ok document ∧
        Document.ofText document.text = .ok document := by
  have valid := @valid_nestedDraft 123 (by decide)
  obtain ⟨document, compiled, again⟩ := ofText_text_iff_of_valid valid
  have values := values_nestedDraft (by decide) compiled
  simp only [values, List.forall_mem_singleton] at again
  have nests : (nestedQuarter 123).nesting ≤ Document.valueDepth := by
    rw [nesting_nestedQuarter]
    decide
  exact ⟨valid, document, compiled, (again (readsBack_nestedQuarter 123)).mpr nests⟩

/-- One array more, and the document of the valid draft cannot be read. -/
theorem exists_valid_document_not_read :
    ¬ ∀ draft : Draft, draft.validate.valid = true →
      ∃ document, draft.compile = .ok document ∧
        Document.ofText document.text = .ok document := by
  intro always
  obtain ⟨document, compiled, read⟩ :=
    always (nestedDraft 124) (valid_nestedDraft (by decide))
  have nests : ∀ value ∈ document.values,
      value.nesting ≤ Document.valueDepth :=
    Document.forall_mem_values.mpr (Document.nesting_le_of_ofText read)
  rw [values_nestedDraft (by decide) compiled, List.forall_mem_singleton,
    nesting_nestedQuarter] at nests
  exact absurd nests (by decide)

end Draft

end FeatureFlags
