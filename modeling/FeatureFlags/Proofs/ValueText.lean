import FeatureFlags.Proofs.NumberText
import FeatureFlags.Proofs.Tables

/-!
# Values in a text

What the printer writes is read back as it was.  `Legible` names the values of
which this is so: they nest at most so deep, no object repeats a name, and each
number is read back from its own text.  Main statement: the text of a legible
value, in any style that puts only spaces between its elements, is read back as
the value.
-/

namespace FeatureFlags.Json

theorem hexNumber?_hexDigits : ∀ n < 0x20,
    hexNumber? (Nat.digitChar (n / 4096 % 16)) (Nat.digitChar (n / 256 % 16))
      (Nat.digitChar (n / 16 % 16)) (Nat.digitChar (n % 16)) = some n := by
  decide

theorem hexUnit_cons {a b c d : Char} {unit : Nat}
    (number : hexNumber? a b c d = some unit) (rest : List Char) :
    hexUnit (a :: b :: c :: d :: rest) = .ok (unit, rest) := by
  have long : ¬ byteCount ((a :: b :: c :: d :: rest).take 4) < 4 := by
    have first := a.utf8Size_pos
    have second := b.utf8Size_pos
    have third := c.utf8Size_pos
    have fourth := d.utf8Size_pos
    simp only [List.take_succ_cons, List.take_zero, byteCount]
    omega
  rw [hexUnit, if_neg long, number]

theorem hexUnit_suffix {n : Nat} (small : n < 0x20) (rest : List Char) :
    hexUnit (hexDigits n ++ rest) = .ok (n, rest) :=
  hexUnit_cons (hexNumber?_hexDigits n small) rest

theorem escapedChar_control {c : Char} (control : c.toNat < 0x20)
    (rest : List Char) :
    escapedChar ('u' :: (hexDigits c.toNat ++ rest)) = .ok (c, rest) := by
  have leading : isLeading c.toNat = false := by
    simp only [isLeading, Bool.and_eq_false_iff, decide_eq_false_iff_not]
    omega
  have trailing : isTrailing c.toNat = false := by
    simp only [isTrailing, Bool.and_eq_false_iff, decide_eq_false_iff_not]
    omega
  have unit := hexUnit_suffix control rest
  simp [escapedChar, hexChar, unit, leading, trailing, bind, Except.bind, pure,
    Except.pure]

theorem stringTail_escape {cs after text rest : List Char} {c : Char}
    (escape : escapedChar cs = .ok (c, after))
    (tail : stringTail after = .ok (text, rest)) :
    stringTail ('\\' :: cs) = .ok (c :: text, rest) := by
  rw [stringTail]
  split
  · simp_all
  · rename_i read left found
    rw [escape] at found
    obtain ⟨rfl, rfl⟩ := Prod.mk.inj (Except.ok.inj found)
    rw [tail]
    rfl

theorem stringTail_plain {cs text rest : List Char} {c : Char}
    (quote : c ≠ '"') (backslash : c ≠ '\\') (plain : ¬ c.toNat < 0x20)
    (tail : stringTail cs = .ok (text, rest)) :
    stringTail (c :: cs) = .ok (c :: text, rest) := by
  rw [stringTail]
  · rw [if_neg plain, tail]
    rfl
  · simpa using quote
  · simpa using backslash

theorem stringTail_escaped {cs text rest : List Char} (c : Char)
    (tail : stringTail cs = .ok (text, rest)) :
    stringTail (escaped c ++ cs) = .ok (c :: text, rest) := by
  unfold escaped
  split
  · exact stringTail_escape rfl tail
  · exact stringTail_escape rfl tail
  · exact stringTail_escape rfl tail
  · exact stringTail_escape rfl tail
  · exact stringTail_escape rfl tail
  · exact stringTail_escape rfl tail
  · exact stringTail_escape rfl tail
  · rename_i quote backslash _ _ _ _ _
    split
    · rename_i control
      exact stringTail_escape (escapedChar_control control cs) tail
    · rename_i plain
      exact stringTail_plain quote backslash plain tail

theorem stringTail_suffix (text rest : List Char) :
    stringTail (text.flatMap escaped ++ '"' :: rest) = .ok (text, rest) := by
  induction text with
  | nil => simp [stringTail]
  | cons c text ih =>
      rw [List.flatMap_cons, List.append_assoc]
      exact stringTail_escaped c ih

theorem string_suffix (text : String) (rest : List Char) :
    string (text.toList.flatMap escaped ++ '"' :: rest) = .ok (text, rest) := by
  rw [string, stringTail_suffix]
  simp [bind, Except.bind, pure, Except.pure]

/-! ## Styles and values -/

structure Style.Spaced (style : Style) : Prop where
  newline : ∀ level, ∀ c ∈ style.newline level, isSpace c = true
  colon : ∃ gap, style.colon = ':' :: gap ∧ ∀ c ∈ gap, isSpace c = true

theorem Style.spaced_compact : Style.compact.Spaced where
  newline _ _ hc := by simp [compact] at hc
  colon := ⟨[], rfl, by simp⟩

theorem Style.spaced_indented : Style.indented.Spaced where
  newline level c hc := by
    rcases List.mem_cons.mp hc with rfl | hc
    · rfl
    · rw [List.eq_of_mem_replicate hc]
      rfl
  colon := ⟨[' '], rfl, by simp [isSpace]⟩

/-- A value that nests at most so deep and is read back from its text. -/
inductive Legible : Nat → Json → Prop
  | null (depth : Nat) : Legible depth null
  | bool (depth : Nat) (value : Bool) : Legible depth (bool value)
  | num (depth : Nat) {n : Number} (readsBack : n.ReadsBack) :
      Legible depth (num n)
  | str (depth : Nat) (text : String) : Legible depth (str text)
  | arr {depth : Nat} {items : List Json}
      (each : ∀ item ∈ items, Legible depth item) :
      Legible (depth + 1) (arr items)
  | obj {depth : Nat} {members : Entries Json}
      (distinct : (Entries.names members).Nodup)
      (each : ∀ member ∈ members, Legible depth member.2) :
      Legible (depth + 1) (obj members)

section Gap

variable {gap : List Char} (spaces : ∀ c ∈ gap, isSpace c = true)

include spaces

theorem skipSpaces_gap (cs : List Char) :
    skipSpaces (gap ++ cs) = skipSpaces cs := by
  induction gap with
  | nil => rfl
  | cons c gap ih =>
      simp only [skipSpaces, List.cons_append, List.dropWhile_cons] at ih ⊢
      rw [if_pos (spaces c (by simp))]
      exact ih fun d hd => spaces d (by simp [hd])

theorem value_gap (depth : Nat) (cs : List Char) :
    value depth (gap ++ cs) = value depth cs := by
  cases depth <;> simp only [value, skipSpaces_gap spaces]

theorem endsNumber_gap {c : Char} {cs : List Char}
    (ends : EndsNumber (c :: cs)) : EndsNumber (gap ++ c :: cs) := by
  cases gap with
  | nil => exact ends
  | cons d gap =>
      have space := spaces d (by simp)
      simp only [isSpace, Bool.or_eq_true, decide_eq_true_eq] at space
      rcases space with ((rfl | rfl) | rfl) | rfl <;>
        simp [EndsNumber, Char.isDigit]

theorem nextItem_close (first : Bool) (rest : List Char) :
    nextItem first (gap ++ ']' :: rest) = .ok (.done rest) := by
  rw [nextItem, skipSpaces_gap spaces]
  simp [skipSpaces, isSpace]

theorem nextName_close (first : Bool) (rest : List Char) :
    nextName first (gap ++ '}' :: rest) = .ok (.done rest) := by
  rw [nextName, skipSpaces_gap spaces]
  simp [skipSpaces, isSpace]

end Gap

def Opens : List Char → Prop
  | [] => False
  | c :: _ => isSpace c = false ∧ c ≠ ']'

theorem Opens.append {cs : List Char} (opens : Opens cs) (rest : List Char) :
    Opens (cs ++ rest) := by
  cases cs with
  | nil => exact opens.elim
  | cons c cs => exact opens

theorem exists_first_chars_num {n : Number} (readsBack : n.ReadsBack) :
    ∃ c rest, n.chars = c :: rest ∧ (c = '-' ∨ c.isDigit = true) := by
  rcases scalar_eq_num (Number.scalar_chars readsBack) with
    ⟨digits, shape, -⟩ | ⟨digit, -⟩
  · exact ⟨_, _, shape, .inl rfl⟩
  · cases shape : n.chars with
    | nil => simp [shape, startsWithDigit] at digit
    | cons c cs =>
        rw [shape] at digit
        exact ⟨c, cs, rfl, .inr digit⟩

theorem opens_chars_num {n : Number} (readsBack : n.ReadsBack) :
    Opens n.chars := by
  obtain ⟨c, rest, shape, rfl | digit⟩ := exists_first_chars_num readsBack
  · rw [shape]
    exact ⟨rfl, by decide⟩
  · rw [shape]
    refine ⟨isSpace_of_isDigit digit, ?_⟩
    rintro rfl
    simp [Char.isDigit] at digit

theorem Legible.opens_chars {depth : Nat} {json : Json}
    (legible : Legible depth json) (style : Style) (level : Nat) :
    Opens (chars style level json) := by
  cases legible with
  | null => exact ⟨rfl, by decide⟩
  | bool _ value => cases value <;> exact ⟨rfl, by decide⟩
  | num _ readsBack =>
      rw [chars]
      exact opens_chars_num readsBack
  | str _ text =>
      rw [chars]
      exact ⟨rfl, by decide⟩
  | @arr _ items _ => cases items <;> rw [chars] <;> exact ⟨rfl, by decide⟩
  | @obj _ members _ _ =>
      rcases members with _ | ⟨⟨name, value⟩, members⟩ <;> rw [chars] <;>
        exact ⟨rfl, by decide⟩

/-! ## Between the elements of a style -/

theorem memberName_suffix (name : String) (rest : List Char) :
    memberName (stringChars name ++ rest) = .ok (.more name rest) := by
  have read := string_suffix name rest
  simp [stringChars, memberName, read]

theorem skipSpaces_comma (cs : List Char) :
    skipSpaces (',' :: cs) = ',' :: cs := by
  simp [skipSpaces, isSpace]

theorem length_lt_itemChars (style : Style) (level : Nat) (items : List Json) :
    items.length < (itemChars style level items).length := by
  induction items with
  | nil => simp [itemChars]
  | cons item items ih =>
      simp only [itemChars, List.length_cons, List.length_append]
      omega

theorem length_lt_memberChars (style : Style) (level : Nat)
    (members : Entries Json) :
    members.length < (memberChars style level members).length := by
  induction members with
  | nil => simp [memberChars]
  | cons member members ih =>
      simp only [memberChars, List.length_cons, List.length_append]
      omega

theorem value_openBracket (depth : Nat) (cs : List Char) :
    value (depth + 1) ('[' :: cs) =
      (items id (value depth) (cs.length + 1) true cs).map fun read =>
        (arr read.1, read.2) := by
  simp [value, skipSpaces, isSpace]

theorem value_openBrace (depth : Nat) (cs : List Char) :
    value (depth + 1) ('{' :: cs) =
      (members id (value depth) (cs.length + 1) true cs).map fun read =>
        (obj (Entries.collapse read.1), read.2) := by
  simp [value, skipSpaces, isSpace]

/--
The text of the value is read as the value, after any spaces and before any rest
that ends a number.
-/
def Recovers {ε : Type} (style : Style)
    (read : List Char → Except ε (Json × List Char)) (json : Json) : Prop :=
  ∀ gap level rest, (∀ c ∈ gap, isSpace c = true) → EndsNumber rest →
    read (gap ++ (chars style level json ++ rest)) = .ok (json, rest)

theorem Recovers.read_chars {ε : Type} {style : Style}
    {read : List Char → Except ε (Json × List Char)} {json : Json}
    (recovers : Recovers style read json) (level : Nat) {rest : List Char}
    (ends : EndsNumber rest) :
    read (chars style level json ++ rest) = .ok (json, rest) :=
  recovers [] level rest (by simp) ends

theorem recovers_value {style : Style} {depth : Nat} {json : Json}
    (h : ∀ level rest, EndsNumber rest →
      value depth (chars style level json ++ rest) = .ok (json, rest)) :
    Recovers style (value depth) json := by
  intro gap level rest spaces ends
  rw [value_gap spaces]
  exact h level rest ends

def objectTail (style : Style) (level : Nat) :
    Bool → Entries Json → List Char
  | true, [] => ['}']
  | true, (name, json) :: members =>
    style.newline (level + 1) ++ (stringChars name ++ (style.colon ++
      (chars style (level + 1) json ++ memberChars style level members)))
  | false, members => memberChars style level members

theorem chars_obj (style : Style) (level : Nat) (members : Entries Json) :
    chars style level (obj members) =
      '{' :: objectTail style level true members := by
  rcases members with _ | ⟨⟨name, json⟩, members⟩
  · rfl
  · simp [chars, objectTail]

theorem length_lt_objectTail_append (style : Style) (level : Nat)
    (members : Entries Json) (rest : List Char) :
    members.length < (objectTail style level true members ++ rest).length + 1 := by
  rcases members with _ | ⟨⟨name, json⟩, members⟩
  · exact Nat.zero_lt_succ _
  · have long := length_lt_memberChars style level members
    simp only [objectTail, List.length_cons, List.length_append]
    omega

section Values

variable {style : Style} (spaced : style.Spaced) {depth level : Nat}

include spaced

theorem nextItem_first {cs : List Char} (opens : Opens cs) :
    nextItem true (style.newline level ++ cs) = .ok (.more () cs) := by
  rw [nextItem, skipSpaces_gap (spaced.newline level)]
  cases cs with
  | nil => exact opens.elim
  | cons c cs => simp [skipSpaces, opens.1, opens.2]

theorem nextItem_comma {cs : List Char} (opens : Opens cs) :
    nextItem false (',' :: (style.newline level ++ cs)) =
      .ok (.more () cs) := by
  have gap := skipSpaces_gap (spaced.newline level) cs
  rw [nextItem, skipSpaces_comma]
  cases cs with
  | nil => exact opens.elim
  | cons c cs =>
      simp only [Char.reduceEq, imp_self, Bool.false_eq_true, if_false, if_true,
        gap]
      simp [skipSpaces, opens.1, opens.2]

theorem nextName_tail_nil (first : Bool) (rest : List Char) :
    nextName first (objectTail style level first [] ++ rest) =
      .ok (.done rest) := by
  cases first with
  | true => exact @nextName_close [] (by simp) true rest
  | false =>
      rw [objectTail, memberChars, List.append_assoc]
      exact nextName_close (spaced.newline level) false rest

theorem nextName_tail_cons (first : Bool) (name : String) (json : Json)
    (members : Entries Json) (rest : List Char) :
    nextName first (objectTail style level first ((name, json) :: members) ++
        rest) =
      .ok (.more name (style.colon ++ (chars style (level + 1) json ++
        (memberChars style level members ++ rest)))) := by
  have read (after : List Char) := memberName_suffix name after
  have gap := skipSpaces_gap (spaced.newline (level + 1))
  cases first with
  | true =>
      simp only [objectTail, List.append_assoc, nextName, gap]
      simpa [stringChars, skipSpaces, isSpace] using read _
  | false =>
      simp only [objectTail, memberChars, List.cons_append, List.append_assoc,
        nextName, skipSpaces_comma]
      simp only [Char.reduceEq, imp_self, Bool.false_eq_true, if_false, if_true,
        gap]
      simpa [stringChars, skipSpaces, isSpace] using read _

theorem colon_suffix (cs : List Char) :
    ∃ gap, colon (style.colon ++ cs) = .ok (gap ++ cs) ∧
      ∀ c ∈ gap, isSpace c = true := by
  obtain ⟨gap, shape, spaces⟩ := spaced.colon
  refine ⟨gap, ?_, spaces⟩
  rw [shape, List.cons_append, colon]
  simp [skipSpaces, isSpace]

theorem endsNumber_itemChars (level : Nat) (items : List Json)
    (rest : List Char) :
    EndsNumber (itemChars style level items ++ rest) := by
  cases items with
  | nil =>
      rw [itemChars, List.append_assoc]
      exact endsNumber_gap (spaced.newline level) (by simp [EndsNumber])
  | cons item items =>
      rw [itemChars]
      simp [EndsNumber]

theorem endsNumber_memberChars (level : Nat) (members : Entries Json)
    (rest : List Char) :
    EndsNumber (memberChars style level members ++ rest) := by
  cases members with
  | nil =>
      rw [memberChars, List.append_assoc]
      exact endsNumber_gap (spaced.newline level) (by simp [EndsNumber])
  | cons member members =>
      rw [memberChars]
      simp [EndsNumber]

theorem items_suffix {fuel : Nat} {items : List Json}
    (each : ∀ item ∈ items,
      Legible depth item ∧ Recovers style (value depth) item)
    (enough : items.length < fuel) (rest : List Char) :
    Json.items id (value depth) fuel false
        (itemChars style level items ++ rest) = .ok (items, rest) := by
  induction items generalizing fuel with
  | nil =>
      obtain ⟨fuel, rfl⟩ := Nat.exists_eq_add_one.mpr enough
      rw [itemChars, List.append_assoc, Json.items, List.singleton_append,
        nextItem_close (spaced.newline level)]
  | cons item items ih =>
      obtain ⟨fuel, rfl⟩ := Nat.exists_eq_add_one.mpr (Nat.zero_lt_of_lt enough)
      obtain ⟨legible, recovers⟩ := each item (by simp)
      have tail := ih (fun other hother => each other (by simp [hother]))
        (by simpa using enough)
      have opens := (legible.opens_chars style (level + 1)).append
        (itemChars style level items ++ rest)
      have ends := endsNumber_itemChars spaced level items rest
      rw [itemChars, List.cons_append, List.append_assoc, List.append_assoc,
        Json.items, nextItem_comma spaced opens]
      simp only [recovers.read_chars (level + 1) ends, tail]

theorem members_suffix {ε : Type} {lift : Stop → ε}
    {read : List Char → Except ε (Json × List Char)} {fuel : Nat}
    {members : Entries Json}
    (each : ∀ member ∈ members, Recovers style read member.2)
    (enough : members.length < fuel) (first : Bool) (rest : List Char) :
    Json.members lift read fuel first
        (objectTail style level first members ++ rest) =
      .ok (members, rest) := by
  induction members generalizing fuel first with
  | nil =>
      obtain ⟨fuel, rfl⟩ := Nat.exists_eq_add_one.mpr enough
      rw [Json.members, nextName_tail_nil spaced]
  | cons member members ih =>
      obtain ⟨name, json⟩ := member
      obtain ⟨fuel, rfl⟩ := Nat.exists_eq_add_one.mpr (Nat.zero_lt_of_lt enough)
      have ends := endsNumber_memberChars spaced level members rest
      have tail := ih (fun other hother => each other (by simp [hother]))
        (Nat.lt_of_succ_lt_succ enough) false
      obtain ⟨gap, colon, spaces⟩ := colon_suffix spaced
        (chars style (level + 1) json ++
          (memberChars style level members ++ rest))
      have recovered :=
        each (name, json) (by simp) gap (level + 1) _ spaces ends
      rw [Json.members, nextName_tail_cons spaced]
      simp only [colon, recovered]
      rw [← objectTail, tail]

theorem recovers_arr {items : List Json}
    (each : ∀ item ∈ items,
      Legible depth item ∧ Recovers style (value depth) item) :
    Recovers style (value (depth + 1)) (arr items) := by
  apply recovers_value
  intro level rest ends
  cases items with
  | nil =>
      simp [chars, value, skipSpaces, isSpace, Json.items, nextItem, Except.map]
  | cons item items =>
      obtain ⟨legible, recovers⟩ := each item (by simp)
      have opens := (legible.opens_chars style (level + 1)).append
        (itemChars style level items ++ rest)
      have follows := endsNumber_itemChars spaced level items rest
      have long := length_lt_itemChars style level items
      rw [chars, List.cons_append, List.append_assoc, List.append_assoc,
        value_openBracket, Json.items, nextItem_first spaced opens]
      simp only [recovers.read_chars (level + 1) follows]
      rw [items_suffix spaced fun other hother => each other (by simp [hother])]
      · rfl
      · simp only [List.length_append]
        omega

theorem recovers_obj {members : Entries Json}
    (distinct : (Entries.names members).Nodup)
    (each : ∀ member ∈ members, Recovers style (value depth) member.2) :
    Recovers style (value (depth + 1)) (obj members) := by
  apply recovers_value
  intro level rest _
  have enough := length_lt_objectTail_append style level members rest
  rw [chars_obj, List.cons_append, value_openBrace,
    members_suffix spaced each enough true]
  simp only [Except.map, Entries.collapse_of_nodup distinct]

theorem Legible.recovers {json : Json} (legible : Legible depth json) :
    Recovers style (value depth) json := by
  induction legible with
  | null =>
      apply recovers_value
      intro level rest _
      rw [chars, List.cons_append, value_eq_scalar rfl (by decide) (by decide)]
      rfl
  | bool _ value =>
      apply recovers_value
      intro level rest _
      cases value <;>
      · rw [chars, List.cons_append,
          value_eq_scalar rfl (by decide) (by decide)]
        rfl
  | num _ readsBack =>
      apply recovers_value
      intro level rest ends
      rw [chars, Number.value_suffix readsBack _ ends]
  | str _ text =>
      apply recovers_value
      intro level rest _
      have read := string_suffix text rest
      rw [chars, stringChars, List.cons_append,
        value_eq_scalar rfl (by decide) (by decide)]
      simp [scalar, read, Except.map]
  | arr each ih =>
      exact recovers_arr spaced fun item hitem =>
        ⟨each item hitem, ih item hitem⟩
  | obj distinct _ ih => exact recovers_obj spaced distinct ih

end Values

theorem parseChars_chars {style : Style} (spaced : style.Spaced) {json : Json}
    (legible : Legible depthLimit json) :
    parseChars (chars style 0 json) = .ok json := by
  have ends : EndsNumber [] := trivial
  have read := (legible.recovers spaced).read_chars 0 ends
  rw [List.append_nil] at read
  exact parseChars_eq_ok_iff.mpr ⟨[], read, rfl⟩

theorem parse_compact {json : Json} (legible : Legible depthLimit json) :
    parse json.compact = .ok json := by
  rw [parse_eq_ok_iff, toList_compact]
  exact parseChars_chars Style.spaced_compact legible

theorem parse_indented {json : Json} (legible : Legible depthLimit json) :
    parse json.indented = .ok json := by
  rw [parse_eq_ok_iff, toList_indented]
  exact parseChars_chars Style.spaced_indented legible

end FeatureFlags.Json
