import FeatureFlags.Json.Fault
import FeatureFlags.Json.Number

/-!
# Words, strings and numbers of a text

Each function here reads one lexical element from the front of a text and
returns it with the rest, or the flaw at which it stopped.
-/

namespace FeatureFlags.Json

def isSpace (c : Char) : Bool :=
  c = ' ' || c = '\n' || c = '\t' || c = '\r'

def skipSpaces (cs : List Char) : List Char := cs.dropWhile isSpace

def word : List Char → List Char → Except Stop (List Char)
  | [], cs => .ok cs
  | _ :: _, [] => .error (.on .endInValue [])
  | letter :: letters, c :: cs =>
    if c = letter then word letters cs
    else .error (.on .expectedWord (c :: cs))

def hexValue? (c : Char) : Option Nat :=
  if '0' ≤ c ∧ c ≤ '9' then some (c.toNat - '0'.toNat)
  else if 'a' ≤ c ∧ c ≤ 'f' then some (c.toNat - 'a'.toNat + 10)
  else if 'A' ≤ c ∧ c ≤ 'F' then some (c.toNat - 'A'.toNat + 10)
  else none

def hexNumber? (a b c d : Char) : Option Nat := do
  let a ← hexValue? a
  let b ← hexValue? b
  let c ← hexValue? c
  let d ← hexValue? d
  return ((a * 16 + b) * 16 + c) * 16 + d

def hexUnit (cs : List Char) : Except Stop (Nat × List Char) :=
  if byteCount (cs.take 4) < 4 then .error (.on .endInString [])
  else
    match cs with
    | a :: b :: c :: d :: rest =>
      match hexNumber? a b c d with
      | some unit => .ok (unit, rest)
      | none => .error ⟨.invalidEscape, byteCount cs - 4⟩
    | _ => .error ⟨.invalidEscape, byteCount cs - 4⟩

def isLeading (unit : Nat) : Bool := 0xD800 ≤ unit && unit ≤ 0xDBFF

def isTrailing (unit : Nat) : Bool := 0xDC00 ≤ unit && unit ≤ 0xDFFF

def pairedChar (leading trailing : Nat) : Char :=
  Char.ofNat ((leading - 0xD800) * 0x400 + (trailing - 0xDC00) + 0x10000)

def trailingUnit (cs : List Char) : Except Stop (Nat × List Char) :=
  match cs with
  | [] => .error (.on .endInString [])
  | '\\' :: [] => .error (.on .endInString [])
  | '\\' :: 'u' :: rest => do
    let (unit, rest) ← hexUnit rest
    if isTrailing unit then return (unit, rest)
    else .error (.before .loneSurrogate rest)
  | '\\' :: rest => .error (.on .unfinishedPair rest)
  | cs => .error (.on .unfinishedPair cs)

def hexChar (cs : List Char) : Except Stop (Char × List Char) := do
  let (unit, rest) ← hexUnit cs
  if isTrailing unit then .error (.before .loneSurrogate rest)
  else if isLeading unit then
    let (trailing, rest) ← trailingUnit rest
    return (pairedChar unit trailing, rest)
  else return (Char.ofNat unit, rest)

def letterEscape? : Char → Option Char
  | '"' => some '"'
  | '\\' => some '\\'
  | '/' => some '/'
  | 'b' => some '\x08'
  | 'f' => some '\x0c'
  | 'n' => some '\n'
  | 'r' => some '\r'
  | 't' => some '\t'
  | _ => none

def escapedChar : List Char → Except Stop (Char × List Char)
  | [] => .error (.on .endInString [])
  | 'u' :: rest => hexChar rest
  | c :: rest =>
    match letterEscape? c with
    | some plain => .ok (plain, rest)
    | none => .error (.on .invalidEscape (c :: rest))

theorem hexUnit_shorter {cs rest : List Char} {unit : Nat}
    (h : hexUnit cs = .ok (unit, rest)) : rest.length < cs.length := by
  unfold hexUnit at h
  split at h
  · simp at h
  · split at h
    · split at h
      · simp only [Except.ok.injEq, Prod.mk.injEq] at h
        simp only [← h.2, List.length_cons]
        omega
      · simp at h
    · simp at h

theorem trailingUnit_shorter {cs rest : List Char} {unit : Nat}
    (h : trailingUnit cs = .ok (unit, rest)) : rest.length < cs.length := by
  unfold trailingUnit at h
  split at h <;> try simp at h
  rename_i after
  cases hunit : hexUnit after with
  | error stop => simp [hunit, bind, Except.bind] at h
  | ok read =>
      obtain ⟨read, tail⟩ := read
      have := hexUnit_shorter hunit
      simp only [hunit, bind, Except.bind] at h
      split at h
      · simp only [pure, Except.pure, Except.ok.injEq, Prod.mk.injEq] at h
        simp only [← h.2, List.length_cons]
        omega
      · simp at h

theorem escapedChar_shorter {cs rest : List Char} {c : Char}
    (h : escapedChar cs = .ok (c, rest)) : rest.length < cs.length := by
  unfold escapedChar at h
  split at h
  · simp at h
  · rename_i after
    unfold hexChar at h
    cases hunit : hexUnit after with
    | error stop => simp [hunit, bind, Except.bind] at h
    | ok read =>
        obtain ⟨read, tail⟩ := read
        have := hexUnit_shorter hunit
        simp only [hunit, bind, Except.bind] at h
        split at h
        · simp at h
        · split at h
          · cases htrail : trailingUnit tail with
            | error stop => simp [htrail] at h
            | ok trail =>
                obtain ⟨trailing, tail'⟩ := trail
                have := trailingUnit_shorter htrail
                simp only [htrail, pure, Except.pure, Except.ok.injEq,
                  Prod.mk.injEq] at h
                simp only [← h.2, List.length_cons]
                omega
          · simp only [pure, Except.pure, Except.ok.injEq, Prod.mk.injEq] at h
            simp only [← h.2, List.length_cons]
            omega
  · split at h
    · simp only [Except.ok.injEq, Prod.mk.injEq] at h
      simp [← h.2]
    · simp at h

def stringTail (cs : List Char) : Except Stop (List Char × List Char) :=
  match cs with
  | [] => .error (.on .endInString [])
  | '"' :: rest => .ok ([], rest)
  | '\\' :: rest =>
    match h : escapedChar rest with
    | .error stop => .error stop
    | .ok (c, after) => do
      have := escapedChar_shorter h
      let (text, rest) ← stringTail after
      return (c :: text, rest)
  | c :: rest =>
    if c.toNat < 0x20 then .error (.on .controlCharacter (c :: rest))
    else do
      let (text, rest) ← stringTail rest
      return (c :: text, rest)
  termination_by cs.length

def string (cs : List Char) : Except Stop (String × List Char) := do
  let (text, rest) ← stringTail cs
  return (String.ofList text, rest)

/-! ## Numbers -/

def digitValue (c : Char) : Nat := c.toNat - '0'.toNat

structure Gathered where
  value : Nat
  count : Nat
  rest : List Char

/-- Gathers digits onto `value` for as long as the result stays below `limit`. -/
def gather (limit value : Nat) : List Char → Gathered
  | [] => ⟨value, 0, []⟩
  | c :: cs =>
    if c.isDigit ∧ value * 10 + digitValue c < limit then
      let further := gather limit (value * 10 + digitValue c) cs
      { further with count := further.count + 1 }
    else ⟨value, 0, c :: cs⟩

def skipDigits (cs : List Char) : List Char := cs.dropWhile Char.isDigit

def startsWithDigit : List Char → Bool
  | c :: _ => c.isDigit
  | [] => false

def significandLimit : Nat := 18446744073709551616

def exponentLimit : Nat := 2147483648

def realNumber (negative : Bool) (significand : Nat) (exponent : Int)
    (rest : List Char) : Except Stop (Number × List Char) :=
  match Decimal.Binary64.ofDecimal? negative significand exponent with
  | some value => .ok (.real value, rest)
  | none => .error (.before .numberOutOfRange rest)

/--
The exponent, from after its letter, added to the one that the point has set.
An exponent too large to gather makes zero of a negative one, and of a positive
one leaves only a zero significand in range.
-/
def withExponent (negative : Bool) (significand : Nat) (exponent : Int)
    (cs : List Char) : Except Stop (Number × List Char) :=
  let (below, cs) : Bool × List Char :=
    match cs with
    | '+' :: rest => (false, rest)
    | '-' :: rest => (true, rest)
    | cs => (false, cs)
  match cs with
  | [] => .error (.on .endInValue [])
  | c :: rest =>
    if c.isDigit then
      let power := gather exponentLimit (digitValue c) rest
      if startsWithDigit power.rest then
        if significand ≠ 0 ∧ below = false then
          .error (.on .numberOutOfRange power.rest)
        else .ok (.real (.zero negative), skipDigits power.rest)
      else
        realNumber negative significand
          (if below then exponent - power.value else exponent + power.value)
          power.rest
    else .error (.on .invalidNumber (c :: rest))

/--
The fraction, from after its point.  Digits that no longer fit the significand
are dropped.
-/
def withFraction (negative : Bool) (significand : Nat) (exponent : Int)
    (cs : List Char) : Except Stop (Number × List Char) :=
  let gathered := gather significandLimit significand cs
  let rest := skipDigits gathered.rest
  if startsWithDigit cs then
    match rest with
    | 'e' :: rest | 'E' :: rest =>
      withExponent negative gathered.value (exponent - gathered.count) rest
    | rest =>
      realNumber negative gathered.value (exponent - gathered.count) rest
  else
    match cs with
    | [] => .error (.on .endInValue [])
    | cs => .error (.on .invalidNumber cs)

def wholeNumber? (negative : Bool) (significand : Nat) : Option Number :=
  let value : Int := if negative then -significand else significand
  if fits : Fits value then
    if negative ∧ significand = 0 then none else some (.whole value fits)
  else none

/--
What follows the whole part of a number.  `extra` counts the digits that no
longer fit the significand: with any of them the number is no longer whole.
-/
def afterWhole (negative : Bool) (significand extra : Nat) (cs : List Char) :
    Except Stop (Number × List Char) :=
  match cs with
  | '.' :: rest => withFraction negative significand extra rest
  | 'e' :: rest | 'E' :: rest => withExponent negative significand extra rest
  | rest =>
    match extra, wholeNumber? negative significand with
    | 0, some number => .ok (number, rest)
    | extra, _ => realNumber negative significand extra rest

def number (negative : Bool) (cs : List Char) : Except Stop (Number × List Char) :=
  match cs with
  | [] => .error (.on .endInValue [])
  | '0' :: rest =>
    if startsWithDigit rest then .error (.on .invalidNumber rest)
    else afterWhole negative 0 0 rest
  | c :: rest =>
    if c.isDigit then
      let gathered := gather significandLimit (digitValue c) rest
      let extra := gathered.rest.takeWhile Char.isDigit
      afterWhole negative gathered.value extra.length
        (skipDigits gathered.rest)
    else .error (.on .invalidNumber (c :: rest))

end FeatureFlags.Json
