import FeatureFlags.Json.Printer
import FeatureFlags.Json.Reader

/-!
# Numbers in a text

A number is read up to the first character that cannot go on with it.  `Takes`
says that a reader finds the same number when more text follows.  Main
statements: a number that is read back from its own text is read back in front
of any rest, and every whole number is read back from its own text.
-/

namespace FeatureFlags.Json

def EndsNumber : List Char → Prop
  | [] => True
  | c :: _ => c.isDigit = false ∧ c ≠ '.' ∧ c ≠ 'e' ∧ c ≠ 'E'

theorem EndsNumber.startsWithDigit {rest : List Char} (ends : EndsNumber rest) :
    startsWithDigit rest = false := by
  cases rest with
  | nil => rfl
  | cons c cs => exact ends.1

section Rest

variable {rest : List Char}

theorem gather_append (ends : startsWithDigit rest = false) (limit value : Nat)
    (cs : List Char) :
    gather limit value (cs ++ rest) =
      { gather limit value cs with
        rest := (gather limit value cs).rest ++ rest } := by
  induction cs generalizing value with
  | nil =>
      cases rest with
      | nil => rfl
      | cons c tail =>
          change c.isDigit = false at ends
          simp [gather, ends]
  | cons c cs ih =>
      simp only [List.cons_append, gather, ih]
      split <;> rfl

theorem skipDigits_append (ends : startsWithDigit rest = false)
    (cs : List Char) : skipDigits (cs ++ rest) = skipDigits cs ++ rest := by
  have kept : skipDigits rest = rest := by
    cases rest with
    | nil => rfl
    | cons c tail =>
        change c.isDigit = false at ends
        simp [skipDigits, ends]
  induction cs with
  | nil => exact kept
  | cons c cs ih =>
      simp only [skipDigits, List.cons_append, List.dropWhile_cons] at ih ⊢
      split
      · exact ih
      · rfl

theorem takeDigits_append (ends : startsWithDigit rest = false)
    (cs : List Char) :
    (cs ++ rest).takeWhile Char.isDigit = cs.takeWhile Char.isDigit := by
  induction cs with
  | nil =>
      cases rest with
      | nil => rfl
      | cons c tail =>
          change c.isDigit = false at ends
          simp [ends]
  | cons c cs ih => simp only [List.cons_append, List.takeWhile_cons, ih]

theorem startsWithDigit_append (ends : startsWithDigit rest = false)
    (cs : List Char) : startsWithDigit (cs ++ rest) = startsWithDigit cs := by
  cases cs with
  | nil => exact ends
  | cons c cs => rfl

end Rest

theorem gather_suffix (limit value : Nat) (cs : List Char) :
    (gather limit value cs).rest <:+ cs := by
  induction cs generalizing value with
  | nil => exact List.suffix_rfl
  | cons c cs ih =>
      rw [gather]
      split
      · exact (ih _).trans (List.suffix_cons c cs)
      · exact List.suffix_rfl

theorem skipDigits_suffix (cs : List Char) : skipDigits cs <:+ cs :=
  List.dropWhile_suffix _

/-! ## Reading numbers -/

theorem realNumber_def :
    realNumber = fun negative significand exponent cs =>
      match Decimal.Binary64.ofDecimal? negative significand exponent with
      | some value => .ok (.real value, cs)
      | none => .error (.before .numberOutOfRange cs) := by
  delta realNumber
  rfl

section Readers

variable {negative : Bool} {significand : Nat} {n : Number}
  {cs left : List Char}

theorem realNumber_eq_ok_iff {exponent : Int} :
    realNumber negative significand exponent cs = .ok (n, left) ↔
      (∃ value,
        Decimal.Binary64.ofDecimal? negative significand exponent = some value ∧
          n = .real value) ∧ left = cs := by
  rw [realNumber_def]
  dsimp only
  -- the kernel must not compute with the rounded value
  generalize Decimal.Binary64.ofDecimal? negative significand exponent = found
  cases found with
  | none => simp
  | some value => simp [eq_comm]

attribute [local irreducible] realNumber wholeNumber?

/-- The number is taken from the text, also when a rest follows what is left. -/
def Takes (read : List Char → Except Stop (Number × List Char))
    (cs : List Char) (n : Number) (left : List Char) : Prop :=
  left <:+ cs ∧
    ∀ rest, EndsNumber rest → read (cs ++ rest) = .ok (n, left ++ rest)

theorem Takes.cons {read inner : List Char → Except Stop (Number × List Char)}
    (takes : Takes inner cs n left) {c : Char}
    (same : ∀ ds, read (c :: ds) = inner ds) :
    Takes read (c :: cs) n left := by
  refine ⟨takes.1.trans (List.suffix_cons c cs), fun rest ends => ?_⟩
  rw [List.cons_append, same]
  exact takes.2 rest ends

theorem realNumber_takes {exponent : Int}
    (h : realNumber negative significand exponent cs = .ok (n, left)) :
    Takes (realNumber negative significand exponent) cs n left := by
  obtain ⟨value, rfl⟩ := realNumber_eq_ok_iff.mp h
  refine ⟨List.suffix_rfl, fun rest _ => ?_⟩
  exact realNumber_eq_ok_iff.mpr ⟨value, rfl⟩

def exponentDigits (negative : Bool) (significand : Nat) (exponent : Int)
    (below : Bool) : List Char → Except Stop (Number × List Char)
  | [] => .error (.on .endInValue [])
  | c :: rest =>
    if c.isDigit then
      let power := gather exponentLimit (digitValue c) rest
      if startsWithDigit power.rest then
        if significand ≠ 0 ∧ below = false then
          .error (.on .numberOutOfRange power.rest)
        else .ok (.real (.zero negative), skipDigits power.rest)
      else
        realNumber negative significand
          (if below then exponent - power.value else exponent + power.value)
          power.rest
    else .error (.on .invalidNumber (c :: rest))

theorem withExponent_eq (negative : Bool) (significand : Nat) (exponent : Int)
    (cs : List Char) :
    withExponent negative significand exponent cs =
      match cs with
      | '+' :: rest => exponentDigits negative significand exponent false rest
      | '-' :: rest => exponentDigits negative significand exponent true rest
      | cs => exponentDigits negative significand exponent false cs := by
  unfold withExponent
  rcases cs with _ | ⟨c, cs⟩
  · rfl
  · by_cases plus : c = '+'
    · subst plus
      rfl
    · by_cases minus : c = '-'
      · subst minus
        rfl
      · simp [plus, minus, exponentDigits]

theorem exponentDigits_takes {exponent : Int} {below : Bool}
    (h : exponentDigits negative significand exponent below cs =
      .ok (n, left)) :
    Takes (exponentDigits negative significand exponent below) cs n left := by
  cases cs with
  | nil => simp [exponentDigits] at h
  | cons c cs =>
      simp only [exponentDigits] at h
      split at h
      · rename_i digit
        have taken := (gather_suffix exponentLimit (digitValue c) cs).trans
          (List.suffix_cons c cs)
        split at h
        · rename_i many
          split at h
          · simp at h
          · rename_i small
            obtain ⟨rfl, rfl⟩ := Prod.mk.inj (Except.ok.inj h)
            refine ⟨(skipDigits_suffix _).trans taken, fun rest ends => ?_⟩
            have last := ends.startsWithDigit
            simp [exponentDigits, digit, gather_append last,
              startsWithDigit_append last, skipDigits_append last, many, small]
        · rename_i few
          obtain ⟨suffix, reads⟩ := realNumber_takes h
          refine ⟨suffix.trans taken, fun rest ends => ?_⟩
          have last := ends.startsWithDigit
          simp [exponentDigits, digit, gather_append last,
            startsWithDigit_append last, few, reads rest ends]
      · simp at h

theorem withExponent_takes {exponent : Int}
    (h : withExponent negative significand exponent cs = .ok (n, left)) :
    Takes (withExponent negative significand exponent) cs n left := by
  rw [withExponent_eq] at h
  split at h
  · exact (exponentDigits_takes h).cons fun ds => withExponent_eq _ _ _ _
  · exact (exponentDigits_takes h).cons fun ds => withExponent_eq _ _ _ _
  · rename_i plus minus
    obtain ⟨suffix, reads⟩ := exponentDigits_takes h
    refine ⟨suffix, fun rest ends => ?_⟩
    rw [withExponent_eq]
    cases cs with
    | nil => simp [exponentDigits] at h
    | cons c cs =>
        have noPlus : c ≠ '+' := fun same => plus cs (by rw [same])
        have noMinus : c ≠ '-' := fun same => minus cs (by rw [same])
        simpa [noPlus, noMinus] using reads rest ends

def afterFraction (negative : Bool) (significand : Nat) (exponent : Int)
    (cs : List Char) : Except Stop (Number × List Char) :=
  match cs with
  | 'e' :: rest | 'E' :: rest =>
    withExponent negative significand exponent rest
  | rest => realNumber negative significand exponent rest

theorem afterFraction_of_endsNumber (exponent : Int) {rest : List Char}
    (ends : EndsNumber rest) :
    afterFraction negative significand exponent rest =
      realNumber negative significand exponent rest := by
  unfold afterFraction
  split
  · simp [EndsNumber] at ends
  · simp [EndsNumber] at ends
  · rfl

theorem afterFraction_takes {exponent : Int}
    (h : afterFraction negative significand exponent cs = .ok (n, left)) :
    Takes (afterFraction negative significand exponent) cs n left := by
  unfold afterFraction at h
  split at h
  · exact (withExponent_takes h).cons fun _ => rfl
  · exact (withExponent_takes h).cons fun _ => rfl
  · rename_i lower upper
    obtain ⟨suffix, reads⟩ := realNumber_takes h
    refine ⟨suffix, fun rest ends => ?_⟩
    cases cs with
    | nil =>
        rw [List.nil_append, afterFraction_of_endsNumber exponent ends]
        exact reads rest ends
    | cons c cs =>
        have noLower : c ≠ 'e' := fun same => lower cs (by rw [same])
        have noUpper : c ≠ 'E' := fun same => upper cs (by rw [same])
        simpa [afterFraction, noLower, noUpper] using reads rest ends

theorem withFraction_eq (exponent : Int) (digit : startsWithDigit cs = true) :
    withFraction negative significand exponent cs =
      afterFraction negative
        (gather significandLimit significand cs).value
        (exponent - (gather significandLimit significand cs).count)
        (skipDigits (gather significandLimit significand cs).rest) := by
  unfold withFraction afterFraction
  exact if_pos digit

theorem withFraction_takes {exponent : Int}
    (h : withFraction negative significand exponent cs = .ok (n, left)) :
    Takes (withFraction negative significand exponent) cs n left := by
  cases digit : startsWithDigit cs with
  | false =>
      unfold withFraction at h
      rw [if_neg (by simp [digit])] at h
      cases cs <;> simp at h
  | true =>
      have taken := (skipDigits_suffix _).trans
        (gather_suffix significandLimit significand cs)
      rw [withFraction_eq exponent digit] at h
      obtain ⟨suffix, reads⟩ := afterFraction_takes h
      refine ⟨suffix.trans taken, fun rest ends => ?_⟩
      have last := ends.startsWithDigit
      have still : startsWithDigit (cs ++ rest) = true := by
        rw [startsWithDigit_append last, digit]
      rw [withFraction_eq exponent still, gather_append last]
      simp only [skipDigits_append last]
      exact reads rest ends

def wholeOrReal (negative : Bool) (significand extra : Nat) (cs : List Char) :
    Except Stop (Number × List Char) :=
  match extra, wholeNumber? negative significand with
  | 0, some number => .ok (number, cs)
  | extra, _ => realNumber negative significand extra cs

theorem wholeOrReal_cases (negative : Bool) (significand extra : Nat) :
    (∃ number, ∀ cs,
      wholeOrReal negative significand extra cs = .ok (number, cs)) ∨
    ∀ cs, wholeOrReal negative significand extra cs =
      realNumber negative significand extra cs := by
  cases extra with
  | zero =>
      cases found : wholeNumber? negative significand with
      | none => exact .inr fun cs => by simp [wholeOrReal, found]
      | some number =>
          exact .inl ⟨number, fun cs => by simp [wholeOrReal, found]⟩
  | succ extra => exact .inr fun cs => by simp [wholeOrReal]

theorem wholeOrReal_of_whole
    (whole : wholeNumber? negative significand = some n) :
    wholeOrReal negative significand 0 cs = .ok (n, cs) := by
  simp [wholeOrReal, whole]

theorem wholeOrReal_takes {extra : Nat}
    (h : wholeOrReal negative significand extra cs = .ok (n, left)) :
    Takes (wholeOrReal negative significand extra) cs n left := by
  rcases wholeOrReal_cases negative significand extra with
    ⟨number, reads⟩ | reads
  · rw [reads] at h
    obtain ⟨rfl, rfl⟩ := Prod.mk.inj (Except.ok.inj h)
    exact ⟨List.suffix_rfl, fun rest _ => reads (cs ++ rest)⟩
  · rw [funext reads] at h ⊢
    exact realNumber_takes h

theorem afterWhole_of_plain (extra : Nat)
    (plain : ∀ c rest, cs = c :: rest → c ≠ '.' ∧ c ≠ 'e' ∧ c ≠ 'E') :
    afterWhole negative significand extra cs =
      wholeOrReal negative significand extra cs := by
  unfold afterWhole
  split
  · exact absurd rfl (plain _ _ rfl).1
  · exact absurd rfl (plain _ _ rfl).2.1
  · exact absurd rfl (plain _ _ rfl).2.2
  · rfl

theorem afterWhole_of_endsNumber (extra : Nat) (ends : EndsNumber cs) :
    afterWhole negative significand extra cs =
      wholeOrReal negative significand extra cs := by
  apply afterWhole_of_plain
  rintro c rest rfl
  exact ends.2

theorem afterWhole_takes {extra : Nat}
    (h : afterWhole negative significand extra cs = .ok (n, left)) :
    Takes (afterWhole negative significand extra) cs n left := by
  unfold afterWhole at h
  split at h
  · exact (withFraction_takes h).cons fun _ => rfl
  · exact (withExponent_takes h).cons fun _ => rfl
  · exact (withExponent_takes h).cons fun _ => rfl
  · rename_i point lower upper
    obtain ⟨suffix, reads⟩ := wholeOrReal_takes h
    refine ⟨suffix, fun rest ends => ?_⟩
    cases cs with
    | nil =>
        rw [List.nil_append, afterWhole_of_endsNumber extra ends]
        exact reads rest ends
    | cons c cs =>
        rw [afterWhole_of_plain extra, reads rest ends]
        rintro _ _ ⟨⟩
        exact ⟨fun same => point cs (by rw [same]),
          fun same => lower cs (by rw [same]),
          fun same => upper cs (by rw [same])⟩

theorem number_of_ne_zero (negative : Bool) {c : Char}
    (digit : c.isDigit = true) (notZero : c ≠ '0') (cs : List Char) :
    number negative (c :: cs) =
      afterWhole negative
        (gather significandLimit (digitValue c) cs).value
        ((gather significandLimit (digitValue c) cs).rest.takeWhile
          Char.isDigit).length
        (skipDigits (gather significandLimit (digitValue c) cs).rest) := by
  unfold number
  simp [digit]

theorem number_takes (h : number negative cs = .ok (n, left)) :
    Takes (number negative) cs n left := by
  unfold number at h
  split at h
  · simp at h
  · split at h
    · simp at h
    · rename_i cs digits
      obtain ⟨suffix, reads⟩ := afterWhole_takes h
      refine ⟨suffix.trans (List.suffix_cons _ _), fun rest ends => ?_⟩
      have last := ends.startsWithDigit
      have single : startsWithDigit (cs ++ rest) = false := by
        simpa [startsWithDigit_append last] using digits
      rw [List.cons_append, number, if_neg (by simp [single])]
      exact reads rest ends
  · rename_i c cs notZero
    split at h
    · rename_i digit
      obtain ⟨suffix, reads⟩ := afterWhole_takes h
      have taken := (skipDigits_suffix _).trans
        (gather_suffix significandLimit (digitValue c) cs)
      refine ⟨(suffix.trans taken).trans (List.suffix_cons _ _),
        fun rest ends => ?_⟩
      have last := ends.startsWithDigit
      have nonzero : c ≠ '0' := by simpa using notZero
      rw [List.cons_append, number_of_ne_zero negative digit nonzero,
        gather_append last]
      simp only [skipDigits_append last, takeDigits_append last]
      exact reads rest ends
    · simp at h

end Readers

/-! ## Written numbers -/

def Solid (cs : List Char) : Prop := ∀ c ∈ cs, isSpace c = false

theorem Solid.nil : Solid [] := List.forall_mem_nil _

theorem Solid.cons {c : Char} {cs : List Char} (head : isSpace c = false)
    (tail : Solid cs) : Solid (c :: cs) :=
  List.forall_mem_cons.mpr ⟨head, tail⟩

theorem Solid.append {cs ds : List Char} (first : Solid cs)
    (second : Solid ds) : Solid (cs ++ ds) :=
  List.forall_mem_append.mpr ⟨first, second⟩

theorem Solid.take {cs : List Char} (solid : Solid cs) (count : Nat) :
    Solid (cs.take count) :=
  fun c hc => solid c (List.mem_of_mem_take hc)

theorem Solid.drop {cs : List Char} (solid : Solid cs) (count : Nat) :
    Solid (cs.drop count) :=
  fun c hc => solid c (List.mem_of_mem_drop hc)

theorem solid_zeros (count : Nat) : Solid (Decimal.zeros count) := by
  intro c hc
  rw [Decimal.zeros] at hc
  rw [List.eq_of_mem_replicate hc]
  rfl

theorem isSpace_of_isDigit {c : Char} (digit : c.isDigit = true) :
    isSpace c = false := by
  rw [Bool.eq_false_iff]
  intro space
  simp only [isSpace, Bool.or_eq_true, decide_eq_true_eq] at space
  rcases space with ((rfl | rfl) | rfl) | rfl <;> simp [Char.isDigit] at digit

theorem solid_toDigits (n : Nat) : Solid (Nat.toDigits 10 n) :=
  fun _ hc =>
    isSpace_of_isDigit (Nat.isDigit_of_mem_toDigits (by decide) (by decide) hc)

theorem solid_fraction {digits : List Char} (solid : Solid digits) :
    Solid (Decimal.fraction digits) := by
  unfold Decimal.fraction
  split
  · exact .cons rfl .nil
  · exact solid

theorem solid_scientific {digits : List Char} (solid : Solid digits)
    (exponent : Int) : Solid (Decimal.scientific digits exponent) := by
  have point :
      Solid (if digits.length ≤ 1 then [] else '.' :: digits.drop 1) := by
    split
    · exact .nil
    · exact .cons rfl (solid.drop 1)
  have sign : isSpace (if exponent < 0 then '-' else '+') = false := by
    split <;> rfl
  exact ((solid.take 1).append point).append
    (.cons rfl (.cons sign (solid_toDigits _)))

theorem solid_text (layout : Decimal.Layout) {digits : List Char}
    (solid : Solid digits) (exponent : Int) :
    Solid (layout.text digits exponent) := by
  unfold Decimal.Layout.text
  split
  · exact solid_scientific solid exponent
  · split
    · exact .cons rfl (.cons rfl ((solid_zeros _).append solid))
    · exact ((solid.take _).append (solid_zeros _)).append
        (.cons rfl (solid_fraction (solid.drop _)))

theorem solid_chars (n : Number) : Solid n.chars := by
  cases n with
  | whole value fits =>
      cases value with
      | ofNat value => exact solid_toDigits value
      | negSucc below => exact .cons rfl (solid_toDigits _)
  | real value =>
      have sign : Solid (if value.negative then ['-'] else []) := by
        split
        · exact .cons rfl .nil
        · exact .nil
      rw [Number.chars, Decimal.Binary64.text]
      dsimp only
      split
      · exact sign.append (solid_text _ (.cons rfl .nil) 0)
      · exact sign.append (solid_text _ (solid_toDigits _) _)

theorem scalar_of_digit {cs : List Char} (digit : startsWithDigit cs = true) :
    scalar cs = (number false cs).map fun read => (num read.1, read.2) := by
  cases cs with
  | nil => simp [startsWithDigit] at digit
  | cons c cs =>
      change c.isDigit = true at digit
      have letters : c ≠ 'n' ∧ c ≠ 't' ∧ c ≠ 'f' ∧ c ≠ '"' ∧ c ≠ '-' := by
        refine ⟨?_, ?_, ?_, ?_, ?_⟩ <;> rintro rfl <;>
          simp [Char.isDigit] at digit
      simp [scalar, letters, digit]

theorem number_of_map_eq_ok {read : Except Stop (Number × List Char)}
    {n : Number} {left : List Char}
    (h : (read.map fun found => (num found.1, found.2)) = .ok (num n, left)) :
    read = .ok (n, left) := by
  cases read with
  | error stop => simp [Except.map] at h
  | ok found =>
      simp only [Except.map, Except.ok.injEq, Prod.mk.injEq, num.injEq] at h ⊢
      exact Prod.ext h.1 h.2

/-- A scalar that is a number begins with a minus sign or a digit. -/
theorem scalar_eq_num {cs left : List Char} {n : Number}
    (h : scalar cs = .ok (num n, left)) :
    (∃ digits, cs = '-' :: digits ∧ number true digits = .ok (n, left)) ∨
      (startsWithDigit cs = true ∧ number false cs = .ok (n, left)) := by
  unfold scalar at h
  split at h
  · simp at h
  · rename_i rest
    cases read : word ['u', 'l', 'l'] rest <;> simp [read, Except.map] at h
  · rename_i rest
    cases read : word ['r', 'u', 'e'] rest <;> simp [read, Except.map] at h
  · rename_i rest
    cases read : word ['a', 'l', 's', 'e'] rest <;> simp [read, Except.map] at h
  · rename_i rest
    cases read : string rest <;> simp [read, Except.map] at h
  · rename_i digits
    exact .inl ⟨digits, rfl, number_of_map_eq_ok h⟩
  · split at h
    · rename_i digit
      exact .inr ⟨digit, number_of_map_eq_ok h⟩
    · simp at h

theorem value_eq_scalar {c : Char} (solid : isSpace c = false)
    (noArray : c ≠ '[') (noObject : c ≠ '{') (depth : Nat) (cs : List Char) :
    value depth (c :: cs) = scalar (c :: cs) := by
  cases depth <;> simp [value, skipSpaces, solid, noArray, noObject]

theorem value_of_digit {cs : List Char} (digit : startsWithDigit cs = true)
    (depth : Nat) : value depth cs = scalar cs := by
  cases cs with
  | nil => simp [startsWithDigit] at digit
  | cons c cs =>
      change c.isDigit = true at digit
      have brackets : c ≠ '[' ∧ c ≠ '{' := by
        refine ⟨?_, ?_⟩ <;> rintro rfl <;> simp [Char.isDigit] at digit
      exact value_eq_scalar (isSpace_of_isDigit digit) brackets.1 brackets.2
        depth cs

theorem skipSpaces_of_solid {cs : List Char} (solid : Solid cs) :
    skipSpaces cs = cs := by
  cases cs with
  | nil => rfl
  | cons c cs => simp [skipSpaces, solid c (by simp)]

theorem eq_nil_of_atEnd {left : List Char} (solid : Solid left)
    (ended : atEnd left = .ok ()) : left = [] := by
  rw [atEnd, skipSpaces_of_solid solid] at ended
  split at ended
  · rfl
  · simp at ended

theorem value_eq_num {depth : Nat} {cs left : List Char} {n : Number}
    (h : value depth cs = .ok (num n, left)) :
    scalar (skipSpaces cs) = .ok (num n, left) := by
  cases depth with
  | zero =>
      unfold value at h
      split at h
      · simp at h
      · simp at h
      · exact h
  | succ depth =>
      unfold value at h
      split at h
      · rename_i rest _
        cases read : items id (value depth) (rest.length + 1) true rest <;>
          simp [read, Except.map] at h
      · rename_i rest _
        cases read : members id (value depth) (rest.length + 1) true rest <;>
          simp [read, Except.map] at h
      · exact h

/-- The number is read back from its text. -/
def Number.ReadsBack (n : Number) : Prop :=
  parse (compact (num n)) = .ok (num n)

theorem toList_compact (json : Json) :
    json.compact.toList = chars .compact 0 json := by
  rw [compact, String.toList_ofList]

theorem toList_indented (json : Json) :
    json.indented.toList = chars .indented 0 json := by
  rw [indented, String.toList_ofList]

theorem parse_eq_ok_iff {text : String} {json : Json} :
    parse text = .ok json ↔ parseChars text.toList = .ok json := by
  rw [parse]
  cases parseChars text.toList with
  | error stop => exact iff_of_false nofun nofun
  | ok found =>
      constructor
      · intro same
        exact congrArg Except.ok (Except.ok.inj same)
      · intro same
        exact congrArg Except.ok (Except.ok.inj same)

theorem parseChars_eq_ok_iff {cs : List Char} {json : Json} :
    parseChars cs = .ok json ↔
      ∃ left, value depthLimit cs = .ok (json, left) ∧
        atEnd left = .ok () := by
  rw [parseChars]
  cases read : value depthLimit cs with
  | error stop => simp
  | ok found =>
      obtain ⟨found, left⟩ := found
      cases ended : atEnd left with
      | error stop =>
          simp only [ended, Except.map, reduceCtorEq, false_iff]
          rintro ⟨_, ⟨⟩, failed⟩
          simp [ended] at failed
      | ok done =>
          simp only [ended, Except.map, Except.ok.injEq]
          constructor
          · rintro rfl
            exact ⟨left, rfl, ended⟩
          · rintro ⟨_, same, -⟩
            exact (Prod.mk.inj same).1

theorem Number.scalar_chars {n : Number} (readsBack : n.ReadsBack) :
    scalar n.chars = .ok (num n, []) := by
  have parsed := parse_eq_ok_iff.mp readsBack
  rw [toList_compact] at parsed
  obtain ⟨left, read, ended⟩ := parseChars_eq_ok_iff.mp parsed
  have scanned := value_eq_num read
  change scalar (skipSpaces n.chars) = _ at scanned
  rw [skipSpaces_of_solid (solid_chars n)] at scanned
  have suffix : left <:+ n.chars := by
    rcases scalar_eq_num scanned with ⟨digits, shape, taken⟩ | ⟨-, taken⟩
    · rw [shape]
      exact (number_takes taken).1.trans (List.suffix_cons _ _)
    · exact (number_takes taken).1
  have nothing : left = [] :=
    eq_nil_of_atEnd (fun c hc => solid_chars n c (suffix.subset hc)) ended
  rw [scanned, nothing]

theorem Number.scalar_suffix {n : Number} (readsBack : n.ReadsBack)
    {rest : List Char} (ends : EndsNumber rest) :
    scalar (n.chars ++ rest) = .ok (num n, rest) := by
  rcases scalar_eq_num (scalar_chars readsBack) with
    ⟨digits, shape, taken⟩ | ⟨digit, taken⟩
  · have reads := (number_takes taken).2 rest ends
    rw [shape]
    simp [scalar, reads, Except.map]
  · have reads := (number_takes taken).2 rest ends
    have still : startsWithDigit (n.chars ++ rest) = true := by
      rw [startsWithDigit_append ends.startsWithDigit, digit]
    rw [scalar_of_digit still, reads]
    rfl

theorem Number.value_suffix {n : Number} (readsBack : n.ReadsBack) (depth : Nat)
    {rest : List Char} (ends : EndsNumber rest) :
    value depth (n.chars ++ rest) = .ok (num n, rest) := by
  have read := scalar_suffix readsBack ends
  rcases scalar_eq_num (scalar_chars readsBack) with
    ⟨digits, shape, -⟩ | ⟨digit, -⟩
  · rw [shape, List.cons_append] at read ⊢
    rw [value_eq_scalar rfl (by decide) (by decide), read]
  · have still : startsWithDigit (n.chars ++ rest) = true := by
      rw [startsWithDigit_append ends.startsWithDigit, digit]
    rw [value_of_digit still, read]

/-! ## Whole numbers -/

theorem gather_digits {limit value : Nat} {cs : List Char}
    (digits : ∀ c ∈ cs, c.isDigit = true)
    (small : Nat.ofDigitChars 10 cs value < limit) :
    gather limit value cs =
      ⟨Nat.ofDigitChars 10 cs value, cs.length, []⟩ := by
  induction cs generalizing value with
  | nil => simp [gather]
  | cons c cs ih =>
      have next :
          value * 10 + digitValue c = 10 * value + (c.toNat - '0'.toNat) := by
        rw [digitValue]
        omega
      rw [Nat.ofDigitChars_cons] at small
      have within : value * 10 + digitValue c < limit := by
        rw [Nat.ofDigitChars_eq_ofDigitChars_zero] at small
        have grows : value * 10 + digitValue c ≤
            10 ^ cs.length * (value * 10 + digitValue c) :=
          Nat.le_mul_of_pos_left _ (Nat.pow_pos (by decide))
        rw [← next] at small
        omega
      rw [gather, if_pos ⟨digits c (by simp), within⟩, next,
        ih (fun d hd => digits d (by simp [hd])) small,
        Nat.ofDigitChars_cons]
      rfl

theorem head?_toDigits_ne_zero {n : Nat} (positive : 0 < n) :
    (Nat.toDigits 10 n).head? ≠ some '0' := by
  induction n using Nat.strongRecOn with
  | ind n ih =>
      rw [Nat.toDigits_eq_if (by decide)]
      split
      · rename_i small
        simp
        omega
      · rename_i large
        have shorter := ih (n / 10) (by omega) (by omega)
        rw [List.head?_append]
        cases head : (Nat.toDigits 10 (n / 10)).head? with
        | none => simp at head
        | some c =>
            rw [head] at shorter
            exact shorter

theorem number_toDigits {n : Nat} (negative : Bool)
    (small : n < significandLimit) :
    number negative (Nat.toDigits 10 n) = wholeOrReal negative n 0 [] := by
  by_cases zero : n = 0
  · subst zero
    rfl
  · have digits : ∀ c ∈ Nat.toDigits 10 n, c.isDigit = true := fun c hc =>
      Nat.isDigit_of_mem_toDigits (by decide) (by decide) hc
    have written := @Nat.ofDigitChars_ten_toDigits n
    have notZero := head?_toDigits_ne_zero (Nat.pos_of_ne_zero zero)
    cases shape : Nat.toDigits 10 n with
    | nil => exact absurd shape Nat.toDigits_ne_nil
    | cons c cs =>
        rw [shape] at digits written notZero
        have value : Nat.ofDigitChars 10 cs (digitValue c) = n := by
          rw [← written, Nat.ofDigitChars_cons, digitValue]
          simp
        have gathered := @gather_digits significandLimit (digitValue c) cs
          (fun d hd => digits d (by simp [hd])) (by rw [value]; exact small)
        rw [number_of_ne_zero negative (digits c (by simp)), gathered, value]
        · exact afterWhole_of_endsNumber 0 trivial
        · simpa using notZero

theorem wholeNumber?_ofNat {n : Nat} (fits : Fits n) :
    wholeNumber? false n = some (.whole n fits) := by
  change (if fits : Fits (n : Int) then
    if false = true ∧ n = 0 then none else some (Number.whole n fits)
    else none) = _
  rw [dif_pos fits]
  simp

theorem wholeNumber?_negSucc {n : Nat} (fits : Fits (.negSucc n)) :
    wholeNumber? true (n + 1) = some (.whole (.negSucc n) fits) := by
  change (if fits : Fits (.negSucc n) then
    if true = true ∧ n + 1 = 0 then none
    else some (Number.whole (.negSucc n) fits)
    else none) = _
  rw [dif_pos fits]
  simp

theorem startsWithDigit_toDigits (n : Nat) :
    startsWithDigit (Nat.toDigits 10 n) = true := by
  cases shape : Nat.toDigits 10 n with
  | nil => exact absurd shape Nat.toDigits_ne_nil
  | cons c cs =>
      have mem : c ∈ Nat.toDigits 10 n := by simp [shape]
      exact Nat.isDigit_of_mem_toDigits (by decide) (by decide) mem

theorem Number.readsBack_whole (value : Int) (fits : Fits value) :
    (whole value fits).ReadsBack := by
  apply parse_eq_ok_iff.mpr
  rw [toList_compact]
  refine parseChars_eq_ok_iff.mpr ⟨[], ?_, rfl⟩
  change Json.value depthLimit (digits value) = _
  cases value with
  | ofNat n =>
      have small : n < significandLimit := Int.ofNat_lt.mp fits.2
      have starts := startsWithDigit_toDigits n
      rw [digits, value_of_digit starts, scalar_of_digit starts,
        number_toDigits false small,
        wholeOrReal_of_whole (wholeNumber?_ofNat fits)]
      rfl
  | negSucc n =>
      have small : n + 1 < significandLimit := by
        have least := fits.1
        simp only [significandLimit]
        omega
      rw [digits, value_eq_scalar rfl (by decide) (by decide), scalar,
        number_toDigits true small,
        wholeOrReal_of_whole (wholeNumber?_negSucc fits)]
      rfl

end FeatureFlags.Json
