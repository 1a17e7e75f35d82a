import FeatureFlags.Proofs.Records
import FeatureFlags.Proofs.Tables
import FeatureFlags.Proofs.ValueText

/-!
# Shapes in a text

A keeper recovers a tree when it keeps the whole of it from its text.  Each
keeper recovers the trees of its shape whose parts are recovered, and a reader
whose keeper recovers a tree takes from the text what it takes from the tree.
-/

namespace FeatureFlags.Shape

open FeatureFlags.Json

/-- The text begins with no space, and not as the word for `null` does. -/
def Begins (cs : List Char) : Prop :=
  ∃ c rest, cs = c :: rest ∧ isSpace c = false ∧ c ≠ 'n'

theorem begins_chars_num {n : Number} (readsBack : n.ReadsBack) :
    Begins n.chars := by
  obtain ⟨c, rest, shape, rfl | digit⟩ := exists_first_chars_num readsBack
  · exact ⟨_, _, shape, rfl, by decide⟩
  · refine ⟨c, rest, shape, isSpace_of_isDigit digit, ?_⟩
    rintro rfl
    simp [Char.isDigit] at digit

theorem begins_chars {depth : Nat} {json : Json}
    (legible : Legible depth json) (present : json ≠ .null) (style : Style)
    (level : Nat) : Begins (chars style level json) := by
  cases legible with
  | null => exact absurd rfl present
  | bool _ value => cases value <;> exact ⟨_, _, rfl, rfl, by decide⟩
  | num _ readsBack =>
      rw [chars]
      exact begins_chars_num readsBack
  | str _ text =>
      rw [chars]
      exact ⟨_, _, rfl, rfl, by decide⟩
  | @arr _ items _ =>
      cases items <;> rw [chars] <;> exact ⟨_, _, rfl, rfl, by decide⟩
  | @obj _ members _ _ =>
      rw [chars_obj]
      exact ⟨_, _, rfl, rfl, by decide⟩

namespace Keeper

variable {style : Style} (spaced : style.Spaced) {depth : Nat}

section

variable {keep : Keeper} {json : Json}

theorem recovers_text (depth : Nat) (text : String) :
    Recovers style (Keeper.text depth) (.str text) := by
  intro gap level rest spaces _
  have read := string_suffix text rest
  have quote : skipSpaces (gap ++ (chars style level (.str text) ++ rest)) =
      '"' :: (text.toList.flatMap escaped ++ '"' :: rest) := by
    rw [skipSpaces_gap spaces, chars, stringChars]
    simp [skipSpaces, isSpace]
  simp only [Keeper.text, quote, read]

theorem recovers_null : Recovers style (keep.nullable depth) .null := by
  intro gap level rest spaces _
  have skipped : skipSpaces (gap ++ (chars style level .null ++ rest)) =
      'n' :: 'u' :: 'l' :: 'l' :: rest := by
    rw [skipSpaces_gap spaces, chars]
    simp [skipSpaces, isSpace]
  rw [nullable, skipped]
  rfl

theorem recovers_nullable (recovers : Recovers style (keep depth) json)
    (begins : ∀ level, Begins (chars style level json)) :
    Recovers style (keep.nullable depth) json := by
  intro gap level rest spaces ends
  obtain ⟨c, cs, shape, solid, present⟩ := begins level
  have read := recovers.read_chars level ends
  rw [shape, List.cons_append] at read
  have skipped : skipSpaces (gap ++ (chars style level json ++ rest)) =
      c :: (cs ++ rest) := by
    rw [skipSpaces_gap spaces, shape]
    simp [skipSpaces, solid]
  rw [nullable, skipped]
  split
  · rename_i word
    exact absurd (List.cons.inj word).1 present
  · exact read

include spaced

theorem recovers_judged {judge : Json → Option Mismatch}
    (legible : Legible depth json) (accepted : judge json = none) :
    Recovers style (judged judge depth) json := by
  intro gap level rest spaces ends
  have read := legible.recovers spaced gap level rest spaces ends
  simp only [judged, read, accepted]

end

theorem skipSpaces_obj {gap : List Char}
    (spaces : ∀ c ∈ gap, isSpace c = true) (style : Style) (level : Nat)
    (members : Entries Json) (rest : List Char) :
    skipSpaces (gap ++ (chars style level (.obj members) ++ rest)) =
      '{' :: (objectTail style level true members ++ rest) := by
  rw [skipSpaces_gap spaces, chars_obj]
  simp [skipSpaces, isSpace]

variable {members : Entries Json}

include spaced

theorem recovers_table {keep : Keeper} (distinct : members.names.Nodup)
    (each : ∀ member ∈ members, Recovers style (keep depth) member.2) :
    Recovers style (keep.table (depth + 1)) (.obj members) := by
  intro gap level rest spaces _
  have enough := length_lt_objectTail_append style level members rest
  have read : Json.members Halt.ofStop (keep depth) _ true
      (objectTail style level true members ++ rest) = .ok (members, rest) :=
    members_suffix spaced each enough true rest
  simp only [table, skipSpaces_obj spaces, read, Except.map, settle,
    Entries.collapse_of_nodup distinct]

theorem keepMembers_suffix {steps : Entries Step} {fuel level : Nat}
    {seen : List String} (distinct : members.names.Nodup)
    (fresh : ∀ name ∈ members.names, name ∉ seen)
    (each : ∀ member ∈ members, ∃ step,
      Entries.value? member.1 steps = some step ∧
        Recovers style step member.2)
    (enough : members.length < fuel) (first : Bool) (rest : List Char) :
    keepMembers steps fuel first seen
        (objectTail style level first members ++ rest) =
      .ok (members, rest) := by
  induction members generalizing fuel first seen with
  | nil =>
      obtain ⟨fuel, rfl⟩ := Nat.exists_eq_add_one.mpr enough
      rw [keepMembers, nextName_tail_nil spaced]
  | cons member members ih =>
      obtain ⟨name, json⟩ := member
      obtain ⟨fuel, rfl⟩ := Nat.exists_eq_add_one.mpr (Nat.zero_lt_of_lt enough)
      rw [Entries.names_cons, List.nodup_cons] at distinct
      rw [Entries.names_cons, List.forall_mem_cons] at fresh
      rw [List.forall_mem_cons] at each
      obtain ⟨⟨step, known, recovers⟩, each⟩ := each
      have ends := endsNumber_memberChars spaced level members rest
      obtain ⟨gap, colon, spaces⟩ := colon_suffix spaced
        (chars style (level + 1) json ++
          (memberChars style level members ++ rest))
      have read := recovers gap (level + 1) _ spaces ends
      -- the name that was just read is among those seen, and does not come again
      have unseen : ∀ other ∈ Entries.names members, other ∉ name :: seen := by
        intro other hother
        rw [List.mem_cons, not_or]
        refine ⟨?_, fresh.2 other hother⟩
        rintro rfl
        exact distinct.1 hother
      have tail := ih distinct.2 unseen each (Nat.lt_of_succ_lt_succ enough) false
      rw [keepMembers, nextName_tail_cons spaced]
      simp only [known, fresh.1, if_false, colon, read]
      rw [← objectTail, tail]

theorem recovers_record {name : String} {fields : Entries Keeper}
    {judge : Form → Entries Json → Option Mismatch}
    (distinct : members.names.Nodup)
    (each : ∀ member ∈ members, ∃ keep,
      Entries.value? member.1 fields = some keep ∧
        Recovers style (keep depth) member.2)
    (accepted : judge .named members = none) :
    Recovers style (Keeper.record name fields judge (depth + 1))
      (.obj members) := by
  intro gap level rest spaces _
  have enough := length_lt_objectTail_append style level members rest
  have steps : ∀ member ∈ members, ∃ step,
      Entries.value? member.1 (fields.mapValues (· depth)) = some step ∧
        Recovers style step member.2 := by
    intro member hmember
    obtain ⟨keep, known, recovers⟩ := each member hmember
    exact ⟨keep depth, by simp [Entries.value?_mapValues, known], recovers⟩
  have fresh : ∀ name ∈ members.names, name ∉ ([] : List String) := by simp
  have read : keepMembers (fields.mapValues (· depth)) _ true []
      (objectTail style level true members ++ rest) = .ok (members, rest) :=
    keepMembers_suffix spaced distinct fresh steps enough true rest
  simp only [Keeper.record, skipSpaces_obj spaces, read, settle, judgeKept,
    accepted]

end Keeper

variable {α : Type} {value : α}

theorem Reader.recovers_ofTree {style : Style} (spaced : style.Spaced)
    {read : Json → Except Mismatch α} {depth : Nat} {json : Json}
    (legible : Legible depth json) (taken : read json = .ok value) :
    Recovers style ((Reader.ofTree read).keep depth) json := by
  apply Keeper.recovers_judged spaced legible
  rw [taken, Reader.mismatch?]

theorem Record.recovers_reader {style : Style} (spaced : style.Spaced)
    {record : Record α} {name : String} {depth : Nat} {members : Entries Json}
    (distinct : members.names.Nodup)
    (each : ∀ member ∈ members, ∃ keep,
      Entries.value? member.1 record.fields = some keep ∧
        Recovers style (keep depth) member.2)
    (read : (record.reader name).ofJson (.obj members) = .ok value) :
    Recovers style ((record.reader name).keep (depth + 1)) (.obj members) := by
  apply Keeper.recovers_record spaced distinct each
  change Reader.mismatch? (record.ofMembers members) = none
  change record.ofMembers members = .ok value at read
  rw [read, Reader.mismatch?]

theorem Reader.ofText_eq_ok {style : Style} {reader : Reader α} {text : String}
    {json : Json} (written : text.toList = chars style 0 json)
    (recovers : Recovers style (reader.keep depthLimit) json)
    (read : reader.ofJson json = .ok value) :
    reader.ofText text = .ok value := by
  have ends : EndsNumber [] := trivial
  have kept := recovers.read_chars 0 ends
  rw [List.append_nil] at kept
  have ended : atEnd [] = .ok () := rfl
  simp only [Reader.ofText, Reader.ofChars, written, kept, ended, read,
    Except.mapError]

end FeatureFlags.Shape
