import FeatureFlags.Proofs.DocumentText
import FeatureFlags.Proofs.DraftJson
import FeatureFlags.Store.Payload

/-!
# Saving to the flag store and fetching again

A draft reaches the flag store in the body of a save request and comes back as a
stored flag.  On the way an empty default and an empty description become
`null`, and absent targeting is sent as `null` too.  Main statement: what is
fetched opens as the flag that the draft compiles to, under the draft's key and
with its description.  A body puts two objects around the value of a variant,
where a document puts four, so more drafts survive the text of their body than
that of their document.
-/

namespace FeatureFlags

open Shape (Reader Record Keeper)

theorem nonempty?_nonempty? (text : Option String) :
    nonempty? (nonempty? text) = nonempty? text := by
  simp [nonempty?, Option.filter_filter]

namespace SaveRequest

/-- What the store holds once the request is carried out; it gives no id. -/
def stored (request : SaveRequest) : StoredFlag where
  id := ""
  name := request.name
  description := request.description
  state := request.state
  defaultVariant := request.defaultVariant
  variants := request.variants
  targeting := request.targeting

theorem ofJson_optionalTable (variants : Option (Table Json)) :
    Reader.json.table.nullable.ofJson (optionalTable variants) =
      .ok variants := by
  cases variants with
  | none => rfl
  | some variants =>
      change (Reader.json.table.ofJson (.obj variants.entries)).map some = _
      rw [Reader.ofJson_table_json, variants.ofEntries_entries]
      rfl

theorem ofJson_optionalTree {targeting : Option Json}
    (present : targeting ≠ some .null) :
    Reader.json.nullable.ofJson (targeting.getD .null) = .ok targeting := by
  cases targeting with
  | none => rfl
  | some tree =>
      cases tree with
      | null => exact absurd rfl present
      | _ => rfl

theorem ofJson_toJson {request : SaveRequest}
    (present : request.targeting ≠ some .null) :
    StoredFlag.reader.ofJson request.toJson = .ok request.stored := by
  have description := ofJson_optionalText request.description
  have state := Flag.ofJson_state request.state
  have default := ofJson_optionalText request.defaultVariant
  have variants := ofJson_optionalTable request.variants
  have targeting := ofJson_optionalTree present
  apply Record.ofMembers_eq_ok_iff.mpr
  -- field by field, from the last one back
  refine Record.build_field ?_ rfl targeting
  refine Record.build_field ?_ rfl variants
  refine Record.build_field ?_ rfl default
  refine Record.build_field ?_ rfl state
  refine Record.build_field ?_ rfl description
  refine Record.build_field ?_ rfl rfl
  exact Record.build_judged rfl rfl

end SaveRequest

namespace Flag

theorem toDraft_nonempty_default (flag : Flag) (key : String) :
    toDraft { flag with defaultVariant := nonempty? flag.defaultVariant } key =
      flag.toDraft key := by
  have default :
      openDefault { flag with defaultVariant := nonempty? flag.defaultVariant } =
        flag.openDefault := by
    unfold openDefault
    rw [nonempty?_nonempty?]
    rfl
  unfold toDraft
  rw [default]
  rfl

end Flag

namespace SaveRequest

theorem toDraft_stored_ofFlag {draft : Draft} (named : draft.key ≠ "")
    (flag : Flag) :
    (ofFlag draft flag).stored.toDraft =
      { flag.toDraft draft.key with
        description := nonempty? draft.description } := by
  have key : (ofFlag draft flag).stored.key = draft.key := if_neg named
  have opened : (ofFlag draft flag).stored.flag.toDraft draft.key =
      flag.toDraft draft.key := flag.toDraft_nonempty_default draft.key
  have description : nonempty? (ofFlag draft flag).stored.description =
      nonempty? draft.description := nonempty?_nonempty? draft.description
  rw [StoredFlag.toDraft, key, opened, description]

section

variable {style : Json.Style} {depth : Nat}

theorem recovers_optionalText (text : Option String) :
    Json.Recovers style (Reader.text.nullable.keep depth)
      (optionalText text) := by
  cases text with
  | none => exact Keeper.recovers_null
  | some text => exact Flag.recovers_default text

variable (spaced : style.Spaced)

include spaced

theorem recovers_optionalTree {targeting : Option Json}
    (legible : ∀ tree, targeting = some tree →
      tree ≠ .null ∧ Json.Legible depth tree) :
    Json.Recovers style (Reader.json.nullable.keep depth)
      (targeting.getD .null) := by
  cases targeting with
  | none => exact Keeper.recovers_null
  | some tree =>
      obtain ⟨present, legible⟩ := legible tree rfl
      exact Flag.recovers_targeting spaced present legible

theorem recovers_toJson {draft : Draft} {flag : Flag}
    (legible : flag.Legible depth) :
    Json.Recovers style (StoredFlag.reader.keep (depth + 2))
      (ofFlag draft flag).toJson := by
  have name : Json.Recovers style (Reader.text.nullable.keep (depth + 1))
      (.str draft.key) := Flag.recovers_default draft.key
  have state : Json.Recovers style (State.reader.keep (depth + 1))
      flag.state.toJson :=
    Reader.recovers_ofTree spaced (.str _ _) (Flag.ofJson_state flag.state)
  have variants := Flag.recovers_variants spaced legible.variants
  have targeting := recovers_optionalTree spaced legible.targeting
  have present : (ofFlag draft flag).targeting ≠ some .null := legible.present
  apply Record.recovers_reader spaced ?_ ?_ (ofJson_toJson present)
  · simp [Entries.names]
  · simp only [List.forall_mem_cons]
    exact ⟨⟨_, rfl, name⟩, ⟨_, rfl, recovers_optionalText _⟩, ⟨_, rfl, state⟩,
      ⟨_, rfl, recovers_optionalText _⟩, ⟨_, rfl, variants⟩,
      ⟨_, rfl, targeting⟩, List.forall_mem_nil _⟩

end

end SaveRequest

namespace StoredFlag

def valueDepth : Nat := Json.depthLimit - 2

theorem nesting_lt_of_ofJson_optional {json : Json} {variants : Table Json}
    (read : Reader.json.table.nullable.ofJson json = .ok (some variants)) :
    ∀ variant ∈ variants.entries, variant.2.nesting < json.nesting := by
  apply Flag.nesting_lt_of_ofJson_variants
  change (Reader.json.table.nullable.ofJson json).map _ = _
  rw [read]
  rfl

theorem nesting_lt_of_ofJson {json : Json} {stored : StoredFlag}
    (read : reader.ofJson json = .ok stored) :
    ∀ variant ∈ stored.flag.variants.entries,
      variant.2.nesting + 1 < json.nesting := by
  obtain ⟨source, built, inside⟩ := Record.exists_source_of_ofJson read
  -- the variants are the last field but one
  obtain ⟨_, targeting, six, -, rfl⟩ := Record.build_eq_ok built
  obtain ⟨_, variants, five, judged, rfl⟩ := Record.build_eq_ok six
  obtain ⟨_, default, four, -, rfl⟩ := Record.build_eq_ok five
  obtain ⟨_, state, three, -, rfl⟩ := Record.build_eq_ok four
  obtain ⟨_, description, two, -, rfl⟩ := Record.build_eq_ok three
  obtain ⟨_, name, one, -, rfl⟩ := Record.build_eq_ok two
  obtain ⟨_, id, none, -, rfl⟩ := Record.build_eq_ok one
  cases none
  intro variant hvariant
  cases variants with
  | none => exact absurd hvariant List.not_mem_nil
  | some variants =>
      rcases Record.judgeField_eq_ok judged with
        ⟨field, found, read⟩ | ⟨-, stands⟩
      · have := nesting_lt_of_ofJson_optional read variant hvariant
        have := inside _ field found
        omega
      · cases stands

theorem shallow_keep : reader.keep.Shallow := by
  have text : Reader.text.nullable.keep.Shallow := Keeper.shallow_text.nullable
  have tree : Reader.json.keep.Shallow := Reader.shallow_ofTree _
  apply Keeper.shallow_record
  change ∀ field ∈ [_, _, _, _, _, _, _], _
  simp only [List.forall_mem_cons]
  exact ⟨text, text, text, Reader.shallow_ofTree _, text, tree.table.nullable,
    tree.nullable, List.forall_mem_nil _⟩

theorem nesting_le_of_ofText {text : String} {stored : StoredFlag}
    (read : reader.ofText text = .ok stored) :
    ∀ variant ∈ stored.flag.variants.entries,
      variant.2.nesting ≤ valueDepth := by
  obtain ⟨tree, nests, taken⟩ := Reader.exists_tree_of_ofText shallow_keep read
  intro variant hvariant
  have inside := nesting_lt_of_ofJson taken variant hvariant
  rw [valueDepth]
  omega

end StoredFlag

namespace SaveRequest

theorem targeting?_ne_null (draft : Draft) :
    draft.targeting? ≠ some .null := by
  unfold Draft.targeting?
  split
  · simp [Logic.Chain.toJson, Logic.call, Logic.single]
  · simp

theorem ofText_compact_iff {draft : Draft} {flag : Flag}
    (saved : draft.toFlag = .ok flag)
    (readsBack : ∀ variant ∈ flag.variants.entries,
      ∀ n ∈ variant.2.numbers, n.ReadsBack) :
    StoredFlag.reader.ofText (ofFlag draft flag).toJson.compact =
        .ok (ofFlag draft flag).stored ↔
      ∀ variant ∈ flag.variants.entries,
        variant.2.nesting ≤ StoredFlag.valueDepth := by
  constructor
  · exact StoredFlag.nesting_le_of_ofText
  · intro nests
    have legible := Draft.legible_of_toFlag saved (by decide) readsBack nests
    exact Reader.ofText_eq_ok (Json.toList_compact _)
      (recovers_toJson Json.Style.spaced_compact legible)
      (ofJson_toJson legible.present)

def sparseDraft : Draft where
  key := "sparse"
  description := some ""
  enabled := false
  type := .object
  variants :=
    [⟨"a", .text "[null]"⟩, ⟨"", .text "\x7b\x7d"⟩, ⟨"a", .text " 1 "⟩]
  defaultVariant := ""
  hasTargeting := false
  rules := []
  hasDefaultRule := true
  defaultRule := "gone"

end SaveRequest

end FeatureFlags
