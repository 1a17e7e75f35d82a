import FeatureFlags.Shape.Record
import Mathlib.Data.List.Basic

/-!
# Laws of readers

What a reader makes of a list, a table or a record, given what it makes of the
parts.  A record is built field by field: a field that is there is read, and one
that is absent is what stands in for it.
-/

namespace FeatureFlags.Shape

variable {α β : Type}

theorem mapError_eq_ok_iff {ε δ : Type} {read : Except ε α} {f : ε → δ}
    {value : α} : read.mapError f = .ok value ↔ read = .ok value := by
  cases read <;> simp [Except.mapError]

namespace Reader

theorem readItems_map {read : Json → Except Mismatch β}
    {write : α → Json} {again : α → β}
    (h : ∀ value, read (write value) = .ok (again value)) (values : List α) :
    readItems read (values.map write) = .ok (values.map again) := by
  induction values with
  | nil => rfl
  | cons value values ih =>
      simp only [List.map_cons, readItems, h, ih]
      rfl

theorem readMembers_mapValues {read : Json → Except Mismatch β}
    {write : α → Json} {again : α → β} {entries : Entries α}
    (h : ∀ entry ∈ entries, read (write entry.2) = .ok (again entry.2)) :
    readMembers read (entries.mapValues write) =
      .ok (entries.mapValues again) := by
  induction entries with
  | nil => rfl
  | cons entry entries ih =>
      have first := h entry (by simp)
      have others := ih fun other hother => h other (by simp [hother])
      simp only [Entries.mapValues, List.map_cons, readMembers, first] at others ⊢
      rw [others]
      rfl

theorem ofJson_table_json (members : Entries Json) :
    json.table.ofJson (.obj members) = .ok (.ofEntries members) := by
  have each : ∀ member ∈ members,
      json.ofJson (id member.2) = .ok (id member.2) := fun _ _ => rfl
  have read : readMembers json.ofJson members = .ok members := by
    simpa [Entries.mapValues] using readMembers_mapValues each
  change (readMembers json.ofJson members).map Table.ofEntries = _
  rw [read]
  rfl

theorem readMembers_of_forall {read : Json → Except Mismatch α}
    {P : Json → α → Prop} {members : Entries Json}
    (h : ∀ member ∈ members,
      ∃ value, read member.2 = .ok value ∧ P member.2 value) :
    ∃ entries, readMembers read members = .ok entries ∧
      entries.names = members.names ∧
      ∀ entry ∈ entries, ∃ json, (entry.1, json) ∈ members ∧ P json entry.2 := by
  induction members with
  | nil => exact ⟨[], rfl, rfl, by simp⟩
  | cons member members ih =>
      obtain ⟨value, hread, hvalue⟩ := h member (by simp)
      obtain ⟨entries, hentries, names, each⟩ :=
        ih fun other hother => h other (by simp [hother])
      refine ⟨(member.1, value) :: entries, ?_, ?_, ?_⟩
      · rw [readMembers, hread, hentries]
        rfl
      · exact congrArg (member.1 :: ·) names
      · rw [List.forall_mem_cons]
        refine ⟨⟨member.2, by simp, hvalue⟩, ?_⟩
        intro entry hentry
        obtain ⟨json, hmember, holds⟩ := each entry hentry
        exact ⟨json, List.mem_cons_of_mem _ hmember, holds⟩

theorem readMembers_eq_ok_iff {read : Json → Except Mismatch α}
    {P : Json → Prop} {taken : Json → α}
    (h : ∀ {json value}, read json = .ok value ↔ P json ∧ taken json = value)
    {members : Entries Json} {entries : Entries α} :
    readMembers read members = .ok entries ↔
      (∀ member ∈ members, P member.2) ∧
        members.mapValues taken = entries := by
  induction members generalizing entries with
  | nil => simp [readMembers, Entries.mapValues]
  | cons member members ih =>
      obtain ⟨name, json⟩ := member
      rw [List.forall_mem_cons, readMembers]
      cases first : read json with
      | error mismatch =>
          refine iff_of_false nofun fun ⟨⟨right, _⟩, _⟩ => ?_
          exact nomatch first.symm.trans (h.mpr ⟨right, rfl⟩)
      | ok value =>
          obtain ⟨right, rfl⟩ := h.mp first
          cases others : readMembers read members with
          | error mismatch =>
              refine iff_of_false nofun fun ⟨⟨_, rights⟩, _⟩ => ?_
              exact nomatch others.symm.trans (ih.mpr ⟨rights, rfl⟩)
          | ok values =>
              obtain ⟨rights, rfl⟩ := ih.mp others
              have all : P json ∧ ∀ member ∈ members, P member.2 :=
                ⟨right, rights⟩
              rw [and_iff_right all]
              simp [Except.map, Entries.mapValues]

theorem exists_mem_of_readMembers {read : Json → Except Mismatch α}
    {members : Entries Json} {entries : Entries α}
    (h : readMembers read members = .ok entries) :
    ∀ entry ∈ entries, ∃ json, (entry.1, json) ∈ members ∧
      read json = .ok entry.2 := by
  induction members generalizing entries with
  | nil =>
      cases h
      simp
  | cons member members ih =>
      simp only [readMembers] at h
      split at h
      · simp at h
      · rename_i value hvalue
        cases others : readMembers read members with
        | error mismatch => simp [others, Except.map] at h
        | ok found =>
            rw [others] at h
            cases h
            rw [List.forall_mem_cons]
            refine ⟨⟨member.2, by simp, hvalue⟩, ?_⟩
            intro entry hentry
            obtain ⟨json, hmember, read⟩ := ih others entry hentry
            exact ⟨json, List.mem_cons_of_mem _ hmember, read⟩

end Reader

namespace Record

variable {record : Record (α → β)} {source : Source} {f : α → β}
  {name : String} {reader : Reader α} {standIn : Form → Option α} {value : α}

theorem build_judged (before : record.build source = .ok f)
    (judged : judgeField name reader standIn source = .ok value) :
    (record.field name reader standIn).build source = .ok (f value) := by
  simp only [field, before, judged, both]

theorem build_field {json : Json} (before : record.build source = .ok f)
    (found : source.find? name = some json)
    (read : reader.ofJson json = .ok value) :
    (record.field name reader standIn).build source = .ok (f value) :=
  build_judged before (by simp only [judgeField, found, read])

theorem build_eq_ok {result : β}
    (h : (record.field name reader standIn).build source = .ok result) :
    ∃ f value, record.build source = .ok f ∧
      judgeField name reader standIn source = .ok value ∧ f value = result := by
  simp only [field, both] at h
  split at h
  · rename_i f value before judged
    exact ⟨f, value, before, judged, Except.ok.inj h⟩
  · simp at h
  · simp at h
  · simp at h

theorem judgeField_eq_ok
    (h : judgeField name reader standIn source = .ok value) :
    (∃ json, source.find? name = some json ∧ reader.ofJson json = .ok value) ∨
      source.find? name = none ∧ standIn source.form = some value := by
  unfold judgeField at h
  split at h
  · rename_i json found
    split at h
    · rename_i taken read
      cases h
      exact .inl ⟨json, found, read⟩
    · simp at h
  · rename_i absent
    split at h
    · rename_i taken stands
      cases h
      exact .inr ⟨absent, stands⟩
    · simp at h

theorem ofMembers_eq_ok_iff {record : Record α} {members : Entries Json} :
    record.ofMembers members = .ok value ↔
      record.build ⟨.named, fun name => Entries.value? name members⟩ =
        .ok value :=
  mapError_eq_ok_iff

theorem ofItems_eq_ok_iff {record : Record α} {items : List Json} :
    record.ofItems name items = .ok value ↔
      items.length ≤ record.fields.length ∧
        record.build ⟨.positional, fun field =>
          Entries.value? field ((Entries.names record.fields).zip items)⟩ =
            .ok value := by
  have fields : record.ofFields name
      ((Entries.names record.fields).zip items) = .ok value ↔ _ :=
    mapError_eq_ok_iff
  rw [← fields, ofItems]
  cases record.ofFields name ((Entries.names record.fields).zip items) with
  | error mismatch => simp
  | ok taken =>
      by_cases long : record.fields.length < items.length
      · simp [long, Nat.not_le_of_lt long]
      · simp [long, Nat.le_of_not_lt long]

end Record

/-- A field of a record: by its name in an object, by its place in an array. -/
def field? (place : Nat) (name : String) (json : Json) : Option Json :=
  (json.member? name).or (json.item? place)

/-- The form of a record: an object, or an array with no more items than fields. -/
def IsRecord (fields : Nat) : Json → Prop
  | .obj _ => True
  | .arr items => items.length ≤ fields
  | _ => False

instance (fields : Nat) : (json : Json) → Decidable (IsRecord fields json)
  | .obj _ => inferInstanceAs (Decidable True)
  | .arr _ => inferInstanceAs (Decidable (_ ≤ _))
  | .null | .bool _ | .num _ | .str _ => inferInstanceAs (Decidable False)

def Reader.orDefault (reader : Reader α) (default : α) :
    Option Json → Except Mismatch α
  | some json => reader.ofJson json
  | none => .ok default

namespace Record

def form : Json → Form
  | .arr _ => .positional
  | _ => .named

def sourceOf (fields : List String) (json : Json) : Source where
  form := form json
  find? name := field? (fields.idxOf name) name json

theorem value?_zip {fields : List String} {items : List Json}
    (short : items.length ≤ fields.length) (name : String) :
    Entries.value? name (fields.zip items) = items[fields.idxOf name]? := by
  induction fields generalizing items with
  | nil =>
      rw [List.length_nil, Nat.le_zero, List.length_eq_zero_iff] at short
      simp [short, Entries.value?]
  | cons field fields ih =>
      cases items with
      | nil => simp [Entries.value?]
      | cons item items =>
          by_cases same : field = name
          · simp [Entries.value?, same]
          · have others := ih (Nat.le_of_succ_le_succ short)
            simp [Entries.value?, same, others]

variable {record : Record (α → β)} {source : Source} {name : String}
  {reader : Reader α}

theorem ofJson_reader_eq_ok_iff {record : Record α} {json : Json} {value : α} :
    (record.reader name).ofJson json = .ok value ↔
      IsRecord record.fields.length json ∧
        record.build (sourceOf (Entries.names record.fields) json) =
          .ok value := by
  cases json with
  | obj members =>
      have source : sourceOf (Entries.names record.fields) (.obj members) =
          ⟨.named, fun name => Entries.value? name members⟩ := by
        simp [sourceOf, form, field?, Json.member?, Json.item?]
      rw [source]
      exact ofMembers_eq_ok_iff.trans (and_iff_right trivial).symm
  | arr items =>
      refine ofItems_eq_ok_iff.trans (and_congr_right fun short => ?_)
      have found := @value?_zip (Entries.names record.fields) items
        (by rwa [Entries.names, List.length_map])
      have source : sourceOf (Entries.names record.fields) (.arr items) =
          ⟨.positional, fun field =>
            Entries.value? field ((Entries.names record.fields).zip items)⟩ := by
        simp [sourceOf, form, field?, Json.member?, Json.item?, found]
      rw [source]
  | _ => exact iff_of_false nofun (And.left · |>.elim)

theorem build_defaulted_eq_ok_iff {default : α} {result : β} :
    (record.defaulted name reader default).build source = .ok result ↔
      ∃ f value, record.build source = .ok f ∧
        reader.orDefault default (source.find? name) = .ok value ∧
          f value = result := by
  have judged (value : α) :
      judgeField name reader (fun _ => some default) source = .ok value ↔
        reader.orDefault default (source.find? name) = .ok value := by
    unfold judgeField
    cases source.find? name with
    | none => simp [Reader.orDefault]
    | some json => cases read : reader.ofJson json <;> simp [Reader.orDefault, read]
  constructor
  · intro built
    obtain ⟨f, value, before, field, same⟩ := build_eq_ok built
    exact ⟨f, value, before, (judged value).mp field, same⟩
  · rintro ⟨f, value, before, field, rfl⟩
    exact build_judged before ((judged value).mpr field)

theorem build_required_eq_ok_iff {result : β} :
    (record.required name reader).build source = .ok result ↔
      ∃ f json value, record.build source = .ok f ∧
        source.find? name = some json ∧ reader.ofJson json = .ok value ∧
          f value = result := by
  constructor
  · intro built
    obtain ⟨f, value, before, judged, same⟩ := build_eq_ok built
    rcases judgeField_eq_ok judged with ⟨json, found, read⟩ | ⟨-, stands⟩
    · exact ⟨f, json, value, before, found, read, same⟩
    · exact nomatch stands
  · rintro ⟨f, json, value, before, found, read, rfl⟩
    exact build_field before found read

end Record

end FeatureFlags.Shape
