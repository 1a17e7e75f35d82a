import FeatureFlags.Proofs.Records
import FeatureFlags.Proofs.ValidDrafts
import FeatureFlags.Proofs.WellFormed

/-!
# Opening valid documents

A document that validation accepts can be read, though validation looks at the
tree alone and reading knows shapes only.  Every flag of it is `Sound`: it is
written as a well-formed flag again, and its kinds of values keep opening and
saving from changing any of them.  Main statement: all of a valid document can
be opened, and saving keeps states, defaults and variants.
-/

namespace FeatureFlags

section References

variable {variants others : Entries Json}
  (known : ∀ name ∈ variants.names, name ∈ others.names)

include known

theorem NamesVariant.mono {item : Json} (h : NamesVariant variants item) :
    NamesVariant others item := by
  obtain ⟨name, hname, same⟩ := h
  exact ⟨name, known name hname, same⟩

theorem WellFormedChain.mono {items : List Json}
    (h : WellFormedChain variants items) : WellFormedChain others items where
  length := h.length
  conditions := h.conditions
  targets i hi := by
    obtain ⟨item, place, names⟩ := h.targets i hi
    exact ⟨item, place, names.mono known⟩
  fallback odd := by
    obtain ⟨item, last, names⟩ := h.fallback odd
    exact ⟨item, last, names.mono known⟩

theorem WellFormedTargeting.mono {targeting : Option Json}
    (h : WellFormedTargeting variants targeting) :
    WellFormedTargeting others targeting := by
  cases h with
  | absent => exact .absent
  | null => exact .null
  | empty => exact .empty
  | chain found chain => exact .chain found (chain.mono known)

end References

theorem WellFormedVariants.collapse {variants : Entries Json}
    (h : WellFormedVariants variants) :
    WellFormedVariants variants.collapse where
  nonempty none := by
    obtain ⟨first, hfirst⟩ := List.exists_mem_of_ne_nil _ h.nonempty
    have named : first.1 ∈ variants.collapse.names :=
      Entries.mem_names_collapse.mpr (List.mem_map_of_mem hfirst)
    simp [none] at named
  named unnamed := h.named (Entries.mem_names_collapse.mp unnamed)
  uniform := by
    obtain ⟨kind, uniform⟩ := h.uniform
    exact ⟨kind, fun variant hvariant =>
      uniform variant (Entries.mem_of_mem_collapse hvariant)⟩

namespace Flag

structure Holds (flag : Flag) (json : Json) : Prop where
  state : json.member? "state" = some flag.state.toJson
  default : json.member? "defaultVariant" = flag.defaultVariant.map .str
  variants : ∃ variants, json.member? "variants" = some (.obj variants) ∧
    flag.variants = .ofEntries variants

/-- A flag of which validation accepts what is written. -/
structure Sound (flag : Flag) : Prop where
  usable : WellFormedVariants flag.variants.entries
  default : ∃ name ∈ flag.variants.entries.names,
    flag.defaultVariant = some name
  targeting : WellFormedTargeting flag.variants.entries flag.targeting

section Reading

open Shape (Reader Record Source)

theorem exists_state_of_wellFormed {fields variants : Entries Json}
    (h : WellFormedFields fields variants) :
    ∃ state : State, Entries.value? "state" fields = some state.toJson := by
  rcases h.state with state | state
  · exact ⟨.enabled, state⟩
  · exact ⟨.disabled, state⟩

theorem ofJson_state (state : State) :
    State.reader.ofJson state.toJson = .ok state := by
  cases state <;> rfl

theorem ofJson_variants (variants : Entries Json) :
    (Reader.json.table.nullAs .empty).ofJson (.obj variants) =
      .ok (.ofEntries variants) := by
  change ((Reader.json.table.ofJson (.obj variants)).map some).map _ = _
  rw [Reader.ofJson_table_json]
  rfl

theorem exists_targeting_of_wellFormed {fields variants : Entries Json}
    (h : WellFormedFields fields variants) :
    ∃ targeting, WellFormedTargeting variants targeting ∧
      Record.judgeField "targeting" Reader.json.nullable (fun _ => some none)
        ⟨.named, fun name => Entries.value? name fields⟩ = .ok targeting := by
  have chain := h.targeting
  simp only [Record.judgeField]
  generalize Entries.value? "targeting" fields = given at chain
  cases chain with
  | absent => exact ⟨none, .absent, rfl⟩
  | null => exact ⟨none, .absent, rfl⟩
  | empty => exact ⟨_, .empty, rfl⟩
  | chain found chain => exact ⟨_, .chain found chain, rfl⟩

theorem exists_sound_of_wellFormed {json : Json} (h : WellFormedFlag json) :
    ∃ flag, reader.ofJson json = .ok flag ∧ flag.Holds json ∧ flag.Sound := by
  obtain ⟨fields, variants, rfl, h⟩ := h
  obtain ⟨state, foundState⟩ := exists_state_of_wellFormed h
  obtain ⟨name, known, foundDefault⟩ := h.default
  obtain ⟨targeting, chain, readTargeting⟩ := exists_targeting_of_wellFormed h
  have kept : ∀ other ∈ variants.names, other ∈ variants.collapse.names :=
    fun _ => Entries.mem_names_collapse.mpr
  refine ⟨⟨state, some name, .ofEntries variants, targeting⟩, ?_,
    ⟨foundState, foundDefault, variants, h.given, rfl⟩,
    h.usable.collapse, ⟨name, kept name known, rfl⟩, chain.mono kept⟩
  apply Record.ofMembers_eq_ok_iff.mpr
  refine Record.build_judged ?_ readTargeting
  refine Record.build_field ?_ h.given (ofJson_variants variants)
  refine Record.build_field ?_ foundDefault rfl
  refine Record.build_field ?_ foundState (ofJson_state state)
  rfl

end Reading

namespace Sound

variable {flag : Flag} (sound : flag.Sound)

include sound

theorem wellFormed_toJson : WellFormedFlag flag.toJson := by
  obtain ⟨state, default, variants, targeting⟩ := flag
  obtain ⟨usable, ⟨name, known, rfl⟩, chain⟩ := sound
  refine ⟨Validation.fields name state variants targeting, variants.entries,
    rfl, ?_⟩
  constructor
  · cases state
    · exact .inl rfl
    · exact .inr rfl
  · rfl
  · exact usable
  · exact ⟨name, known, rfl⟩
  · cases targeting <;> exact chain

theorem keepsDefault : flag.KeepsDefault := by
  obtain ⟨name, known, default⟩ := sound.default
  refine .inl ⟨name, ?_, default⟩
  rintro rfl
  exact sound.usable.named known

theorem keepsValues : flag.KeepsValues := by
  obtain ⟨kind, uniform⟩ := sound.usable.uniform
  obtain ⟨first, rest, entries⟩ :=
    List.exists_cons_of_ne_nil sound.usable.nonempty
  -- the first value is an array or object, or none is
  by_cases compound : first.2.IsCompound
  · exact .inl ⟨first, by simp [Table.first?, entries], compound⟩
  · right
    intro variant hvariant
    have same : variant.2.kind = first.2.kind :=
      (uniform variant hvariant).trans
        (uniform first (by simp [entries])).symm
    rwa [Json.IsCompound, same]

theorem exists_saved (readable : flag.Readable) (key : String) :
    ∃ saved, (flag.toDraft key).toFlag = .ok saved ∧
      saved.state = flag.state ∧
      saved.defaultVariant = flag.defaultVariant ∧
      saved.variants = flag.variants :=
  ⟨flag.resaved, toFlag_toDraft (fun _ => readable) key, rfl,
    some_openDefault_iff.mpr sound.keepsDefault,
    mapValues_kept_iff.mpr sound.keepsValues⟩

end Sound

end Flag

namespace Document

structure Sound (document : Document) : Prop where
  named : "" ∉ document.flags.entries.names
  flags : ∀ entry ∈ document.flags.entries, entry.2.Sound

theorem Sound.wellFormed_toJson {document : Document} (sound : document.Sound) :
    WellFormed document.toJson := by
  refine ⟨_, _, rfl, rfl, ?_⟩
  intro written hwritten
  obtain ⟨entry, hentry, rfl⟩ := List.mem_map.mp hwritten
  refine ⟨?_, (sound.flags entry hentry).wellFormed_toJson⟩
  intro unnamed
  exact sound.named (List.mem_map.mpr ⟨entry, hentry, unnamed⟩)

theorem ofJson_of_readMembers {members flags : Entries Json}
    {entries : Entries Flag}
    (given : Entries.value? "flags" members = some (.obj flags))
    (read : Shape.Reader.readMembers Flag.reader.ofJson flags = .ok entries) :
    ofJson (.obj members) = .ok ⟨.ofEntries entries.collapse⟩ := by
  apply Shape.Record.ofMembers_eq_ok_iff.mpr
  refine Shape.Record.build_field rfl given ?_
  change ((Shape.Reader.readMembers Flag.reader.ofJson flags).map
    Table.ofEntries).map _ = _
  rw [read]
  rfl

theorem exists_sound_of_wellFormed {json : Json} (h : WellFormed json) :
    ∃ document, ∃ flags : Entries Json,
      json.member? "flags" = some (.obj flags) ∧
      ofJson json = .ok document ∧
      (∀ key, key ∈ document.flags.entries.names ↔ key ∈ flags.names) ∧
      (∀ entry ∈ document.flags.entries, ∃ flag,
        (entry.1, flag) ∈ flags ∧ entry.2.Holds flag) ∧
      document.Sound := by
  obtain ⟨members, flags, rfl, given, each⟩ := h
  obtain ⟨entries, read, names, sound⟩ :=
    Shape.Reader.readMembers_of_forall
      (P := fun json (flag : Flag) => flag.Holds json ∧ flag.Sound)
      fun entry hentry => Flag.exists_sound_of_wellFormed (each entry hentry).2
  have inside {entry : String × Flag}
      (h : entry ∈ (SortedTable.ofEntries entries.collapse).entries) :
      entry ∈ entries :=
    Entries.mem_of_mem_collapse (SortedTable.mem_of_mem_ofEntries h)
  have keys (key : String) :
      key ∈ (SortedTable.ofEntries entries.collapse).entries.names ↔
        key ∈ Entries.names flags := by
    rw [SortedTable.mem_names_ofEntries, Entries.mem_names_collapse, names]
  refine ⟨⟨.ofEntries entries.collapse⟩, flags, given,
    ofJson_of_readMembers given read, keys, ?_, ?_, ?_⟩
  · intro entry hentry
    obtain ⟨flag, hflag, holds, -⟩ := sound entry (inside hentry)
    exact ⟨flag, hflag, holds⟩
  · rw [keys]
    intro unnamed
    obtain ⟨entry, hentry, empty⟩ := List.mem_map.mp unnamed
    exact (each entry hentry).1 empty
  · intro entry hentry
    obtain ⟨-, -, -, sound⟩ := sound entry (inside hentry)
    exact sound

/--
A document that validation accepts can be read, with all of its keys and what
its flags hold; what was read is valid too; and opening and saving a flag of it
keeps the flag's state, its default and its variants in their order.
-/
theorem exists_ofJson_of_valid {json : Json}
    (valid : (FeatureFlags.validate json).valid = true) :
    ∃ document, ∃ flags : Entries Json,
      json.member? "flags" = some (.obj flags) ∧
      ofJson json = .ok document ∧
      (∀ key, key ∈ document.flags.entries.names ↔ key ∈ flags.names) ∧
      (∀ entry ∈ document.flags.entries, ∃ flag,
        (entry.1, flag) ∈ flags ∧ entry.2.Holds flag) ∧
      document.validate.valid = true ∧
      ∀ entry ∈ document.flags.entries, entry.2.Readable → ∀ key,
        ∃ saved, (entry.2.toDraft key).toFlag = .ok saved ∧
          saved.state = entry.2.state ∧
          saved.defaultVariant = entry.2.defaultVariant ∧
          saved.variants = entry.2.variants := by
  have wellFormed := Validation.violations_eq_nil_iff.mp
    (Report.valid_ofViolations_iff.mp valid)
  obtain ⟨document, flags, given, read, keys, holds, sound⟩ :=
    exists_sound_of_wellFormed wellFormed
  refine ⟨document, flags, given, read, keys, holds, ?_, ?_⟩
  · exact Report.valid_ofViolations_iff.mpr
      (Validation.violations_eq_nil_iff.mpr sound.wellFormed_toJson)
  · intro entry hentry readable key
    exact (sound.flags entry hentry).exists_saved readable key

def looseTargeting : Json :=
  .obj [("else", .null), ("if", .arr
    [Logic.negation (.arr [Logic.call ">" []]), .str "dark",
      Logic.call "in" [.str "x", .arr [.null]], .str "light"])]

def looseJson : Json :=
  .obj [("version", .null), ("flags", .obj [
    ("theme", .obj [("targeting", looseTargeting),
      ("defaultVariant", .str "light"),
      ("variants", .obj
        [("light", .arr [.str "#fff", .null]), ("dark", .arr [])]),
      ("state", .str "DISABLED")]),
    ("beta", .obj [("state", .str "ENABLED"), ("targeting", .null),
      ("defaultVariant", .str "off"),
      ("variants", .obj [("on", .null), ("off", .null)])])])]

def looseDocument : Document :=
  ⟨.ofEntries
    [("beta", ⟨.enabled, some "off",
        .ofEntries [("on", .null), ("off", .null)], none⟩),
      ("theme", ⟨.disabled, some "light",
        .ofEntries [("light", .arr [.str "#fff", .null]), ("dark", .arr [])],
        some looseTargeting⟩)]⟩

theorem exists_ofJson_of_valid_loose :
    (FeatureFlags.validate looseJson).valid = true ∧
      ofJson looseJson = .ok looseDocument ∧
      looseDocument.validate.valid = true ∧
      ∀ entry ∈ looseDocument.flags.entries, entry.2.Readable ∧
        ∃ saved, (entry.2.toDraft entry.1).toFlag = .ok saved ∧
          saved.variants = entry.2.variants := by
  have valid : (FeatureFlags.validate looseJson).valid = true := by
    decide +kernel
  have readable : ∀ entry ∈ looseDocument.flags.entries, entry.2.Readable := by
    decide +kernel
  obtain ⟨document, flags, -, read, -, -, again, kept⟩ :=
    exists_ofJson_of_valid valid
  obtain rfl : looseDocument = document := Except.ok.inj read
  refine ⟨valid, read, again, ?_⟩
  intro entry hentry
  obtain ⟨saved, compiled, -, -, variants⟩ :=
    kept entry hentry (readable entry hentry) entry.1
  exact ⟨readable entry hentry, saved, compiled, variants⟩

end Document

end FeatureFlags
