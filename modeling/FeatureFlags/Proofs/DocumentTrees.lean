import FeatureFlags.Proofs.DocumentText
import FeatureFlags.Proofs.FlagTrees
import FeatureFlags.Proofs.SaveRequests

/-!
# Trees that documents are read from

A tree in one of several forms is read as a document: flags by name or by place,
states as truth values, fields that are absent or `null`, keys that mean nothing,
flags in any order.  `IsReadFrom` says what is made of all these.  Main statement:
what is made of them once is read back from its own tree unchanged, and so is
every document that a draft compiles to.
-/

namespace FeatureFlags.Document

open Shape (Reader Record field? IsRecord)

/--
The tree has flags, none of them malformed, and the document holds what their
fields stand for, each under its key.
-/
structure IsReadFrom (document : Document) (json : Json) : Prop where
  form : IsRecord 1 json
  flags : ∃ flags : Entries Json, field? 0 "flags" json = some (.obj flags) ∧
    (∀ flag ∈ flags, ¬ Flag.Malformed flag.2) ∧
    document.flags.entries.Perm (flags.collapse.mapValues Flag.ofFields)

theorem perm_flags (flags : Entries Json) :
    (SortedTable.ofEntries
        (Table.ofEntries (flags.mapValues Flag.ofFields)).entries).entries.Perm
      (flags.collapse.mapValues Flag.ofFields) := by
  have distinct : (flags.collapse.mapValues Flag.ofFields).names.Nodup := by
    rw [Entries.names_mapValues]
    exact flags.nodup_names_collapse
  -- a repeated flag has been taken once before the flags are sorted
  change (SortedTable.ofEntries
    (flags.mapValues Flag.ofFields).collapse).entries.Perm _
  rw [Entries.collapse_mapValues]
  exact SortedTable.perm_ofEntries distinct

theorem flags_eq_ok_iff {json : Json} {table : SortedTable Flag} :
    (Flag.reader.table.map fun read => SortedTable.ofEntries read.entries).ofJson
        json = .ok table ↔
      ∃ flags : Entries Json, json = .obj flags ∧
        (∀ flag ∈ flags, ¬ Flag.Malformed flag.2) ∧
        table.entries.Perm (flags.collapse.mapValues Flag.ofFields) := by
  cases json with
  | obj flags =>
      have read (entries : Entries Flag) :
          Reader.readMembers Flag.reader.ofJson flags = .ok entries ↔
            (∀ flag ∈ flags, ¬ Flag.Malformed flag.2) ∧
              Entries.mapValues Flag.ofFields flags = entries :=
        Reader.readMembers_eq_ok_iff Flag.ofJson_eq_ok_iff
      change ((Reader.readMembers Flag.reader.ofJson flags).map
        Table.ofEntries).map _ = _ ↔ _
      constructor
      · cases taken : Reader.readMembers Flag.reader.ofJson flags with
        | error mismatch => exact nofun
        | ok entries =>
            rintro ⟨rfl⟩
            obtain ⟨right, rfl⟩ := (read entries).mp taken
            exact ⟨flags, rfl, right, perm_flags flags⟩
      · rintro ⟨_, ⟨rfl⟩, right, same⟩
        rw [(read _).mpr ⟨right, rfl⟩]
        exact congrArg Except.ok
          (SortedTable.eq_of_perm ((perm_flags flags).trans same.symm))
  | _ => exact iff_of_false nofun fun ⟨_, same, _⟩ => nomatch same

theorem ofJson_eq_ok_iff {json : Json} {document : Document} :
    ofJson json = .ok document ↔ document.IsReadFrom json := by
  refine Record.ofJson_reader_eq_ok_iff.trans ?_
  simp only [Record.build_required_eq_ok_iff]
  constructor
  · rintro ⟨form, _, tree, flags, none, found, read, rfl⟩
    cases none
    obtain ⟨members, rfl, right, same⟩ := flags_eq_ok_iff.mp read
    exact ⟨form, members, found, right, same⟩
  · rintro ⟨form, members, found, right, same⟩
    exact ⟨form, _, _, document.flags, rfl, found,
      flags_eq_ok_iff.mpr ⟨members, rfl, right, same⟩, rfl⟩

theorem IsReadFrom.targeting_ne_null {document : Document} {json : Json}
    (h : document.IsReadFrom json) :
    ∀ entry ∈ document.flags.entries, entry.2.targeting ≠ some .null := by
  obtain ⟨-, flags, -, -, same⟩ := h
  intro entry hentry
  obtain ⟨tree, -, rfl⟩ := List.mem_map.mp (same.mem_iff.mp hentry)
  exact Flag.presentOf_ne_null _

theorem targeting_ne_null_of_compile {draft : Draft} {document : Document}
    (compiled : draft.compile = .ok document) :
    ∀ entry ∈ document.flags.entries, entry.2.targeting ≠ some .null := by
  unfold Draft.compile at compiled
  cases saved : draft.toFlag with
  | error error =>
      rw [saved] at compiled
      exact nomatch compiled
  | ok flag =>
      rw [saved] at compiled
      cases compiled
      obtain ⟨values, -, rfl⟩ := Draft.toFlag_eq_ok saved
      exact List.forall_mem_singleton.mpr (SaveRequest.targeting?_ne_null draft)

/--
A document is read from just the trees that it is made of, and what was read or
compiled is read back from the tree that is written of it.
-/
theorem reading_settles :
    (∀ json document, ofJson json = .ok document ↔ document.IsReadFrom json) ∧
      (∀ json document, ofJson json = .ok document →
        ofJson document.toJson = .ok document) ∧
      ∀ draft document, Draft.compile draft = .ok document →
        ofJson document.toJson = .ok document := by
  refine ⟨fun _ _ => ofJson_eq_ok_iff, ?_, ?_⟩
  · intro json document read
    exact ofJson_toJson (ofJson_eq_ok_iff.mp read).targeting_ne_null
  · intro draft document compiled
    exact ofJson_toJson (targeting_ne_null_of_compile compiled)

def unsettledTree : Json :=
  .arr [.obj [("theme", Flag.positionalFlag), ("beta", Flag.looseObject)]]

def settledDocument : Document :=
  ⟨.ofEntries
    [("beta", ⟨.enabled, none, .empty, some (.arr [.str "on"])⟩),
      ("theme", ⟨.enabled, some "on",
        .ofEntries [("on", .null), ("off", .arr [])], none⟩)]⟩

def targetedDraft : Draft := { Draft.new "f" with hasTargeting := true }

theorem reading_settles_unsettled :
    (ofJson unsettledTree = .ok settledDocument ∧
        settledDocument.IsReadFrom unsettledTree ∧
        settledDocument.toJson = .obj [("flags", .obj [
          ("beta", .obj [("state", .str "ENABLED"), ("variants", .obj []),
            ("targeting", .arr [.str "on"])]),
          ("theme", .obj [("state", .str "ENABLED"),
            ("defaultVariant", .str "on"),
            ("variants", .obj [("on", .null), ("off", .arr [])])])])] ∧
        ofJson settledDocument.toJson = .ok settledDocument) ∧
      ∃ document, targetedDraft.compile = .ok document ∧
        ofJson document.toJson = .ok document := by
  obtain ⟨from_iff, again, compiled⟩ := reading_settles
  have read : ofJson unsettledTree = .ok settledDocument := rfl
  have saved : ∃ document, targetedDraft.compile = .ok document := ⟨_, rfl⟩
  obtain ⟨document, saved⟩ := saved
  exact ⟨⟨read, (from_iff _ _).mp read, by decide +kernel, again _ _ read⟩,
    document, saved, compiled _ _ saved⟩

end FeatureFlags.Document
