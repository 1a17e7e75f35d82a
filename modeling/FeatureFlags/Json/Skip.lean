import FeatureFlags.Json.Reader

/-!
# Skipping a value

A value that nobody asked for is passed over without being built.  Its brackets
and quotes must match and its numbers must have digits where digits belong, but
numbers may be of any size, escapes may name any code unit, and nesting has no
limit.
-/

namespace FeatureFlags.Json

def skipEscape : List Char → Except Stop (List Char)
  | [] => .error (.on .endInString [])
  | 'u' :: rest => (hexUnit rest).map Prod.snd
  | c :: rest =>
    match letterEscape? c with
    | some _ => .ok rest
    | none => .error (.on .invalidEscape (c :: rest))

theorem skipEscape_shorter {cs rest : List Char}
    (h : skipEscape cs = .ok rest) : rest.length < cs.length := by
  unfold skipEscape at h
  split at h
  · simp at h
  · rename_i after
    cases hunit : hexUnit after with
    | error stop => simp [hunit, Except.map] at h
    | ok read =>
        have := hexUnit_shorter hunit
        simp only [hunit, Except.map, Except.ok.injEq] at h
        simp only [← h, List.length_cons]
        omega
  · split at h
    · simp only [Except.ok.injEq] at h
      simp [← h]
    · simp at h

def skipString (cs : List Char) : Except Stop (List Char) :=
  match cs with
  | [] => .error (.on .endInString [])
  | '"' :: rest => .ok rest
  | '\\' :: rest =>
    match h : skipEscape rest with
    | .error stop => .error stop
    | .ok after =>
      have := skipEscape_shorter h
      skipString after
  | c :: rest =>
    if c.toNat < 0x20 then .error (.before .controlCharacter (c :: rest))
    else skipString rest
  termination_by cs.length

def skipExponent (cs : List Char) : Except Stop (List Char) :=
  let cs :=
    match cs with
    | '+' :: rest => rest
    | '-' :: rest => rest
    | cs => cs
  if startsWithDigit cs then .ok (skipDigits cs)
  else .error (.on .invalidNumber cs)

def skipFraction (cs : List Char) : Except Stop (List Char) :=
  if startsWithDigit cs then
    match skipDigits cs with
    | 'e' :: rest | 'E' :: rest => skipExponent rest
    | rest => .ok rest
  else .error (.on .invalidNumber cs)

def skipNumber (cs : List Char) : Except Stop (List Char) :=
  let afterWhole (cs : List Char) : Except Stop (List Char) :=
    match cs with
    | '.' :: rest => skipFraction rest
    | 'e' :: rest | 'E' :: rest => skipExponent rest
    | rest => .ok rest
  match cs with
  | '0' :: rest =>
    if startsWithDigit rest then .error (.on .invalidNumber rest)
    else afterWhole rest
  | cs =>
    if startsWithDigit cs then afterWhole (skipDigits cs)
    else .error (.on .invalidNumber cs)

inductive Bracket
  | array | object

def Bracket.closing : Bracket → Char
  | array => ']'
  | object => '}'

def Bracket.unclosed : Bracket → Flaw
  | array => .endInArray
  | object => .endInObject

def Bracket.expectedComma : Bracket → Flaw
  | array => .expectedCommaOrBracket
  | object => .expectedCommaOrBrace

def skipName (bracket : Bracket) (cs : List Char) :
    Except Stop (List Char) :=
  match bracket with
  | .array => .ok cs
  | .object =>
    match skipSpaces cs with
    | [] => .error (.on .endInObject [])
    | '"' :: rest =>
      match skipString rest with
      | .error stop => .error stop
      | .ok rest => colon rest
    | rest => .error (.on .nameNotString rest)

def skipScalar (cs : List Char) : Except Stop (List Char) :=
  match cs with
  | [] => .error (.on .endInValue [])
  | 'n' :: rest => word ['u', 'l', 'l'] rest
  | 't' :: rest => word ['r', 'u', 'e'] rest
  | 'f' :: rest => word ['a', 'l', 's', 'e'] rest
  | '"' :: rest => skipString rest
  | '-' :: rest => skipNumber rest
  | c :: rest =>
    if c.isDigit then skipNumber (c :: rest)
    else .error (.on .expectedValue (c :: rest))

mutual

/--
The rest after a value.  Of three calls in a row one takes a character, so three
times the length of the text is fuel enough.
-/
def skipValue : Nat → List Char → Except Stop (List Char)
  | 0, cs => .error (.on .endInValue cs)
  | fuel + 1, cs =>
    match skipSpaces cs with
    | '[' :: rest => skipFirst .array fuel rest
    | '{' :: rest => skipFirst .object fuel rest
    | cs => skipScalar cs

def skipFirst (bracket : Bracket) : Nat → List Char → Except Stop (List Char)
  | 0, cs => .error (.on bracket.unclosed cs)
  | fuel + 1, cs =>
    match skipSpaces cs with
    | [] => .error (.on bracket.unclosed [])
    | c :: rest =>
      if c = bracket.closing then .ok rest
      else skipPart bracket fuel (c :: rest)

def skipPart (bracket : Bracket) : Nat → List Char → Except Stop (List Char)
  | 0, cs => .error (.on bracket.unclosed cs)
  | fuel + 1, cs =>
    match skipName bracket cs with
    | .error stop => .error stop
    | .ok rest =>
      match skipValue fuel rest with
      | .error stop => .error stop
      | .ok rest => skipMore bracket fuel rest

def skipMore (bracket : Bracket) : Nat → List Char → Except Stop (List Char)
  | 0, cs => .error (.on bracket.unclosed cs)
  | fuel + 1, cs =>
    match skipSpaces cs with
    | [] => .error (.on bracket.unclosed [])
    | c :: rest =>
      if c = bracket.closing then .ok rest
      else if c = ',' then skipPart bracket fuel rest
      else .error (.on bracket.expectedComma (c :: rest))

end

def skip (cs : List Char) : Except Stop (List Char) :=
  skipValue (3 * cs.length + 1) cs

end FeatureFlags.Json
