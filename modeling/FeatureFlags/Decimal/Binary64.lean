/-!
# Finite binary64 numbers

A finite binary64 number is a sign and a multiple of the unit `2 ^ -1074`.  The
multiple is `mantissa * 2 ^ shift`, and `Canonical` makes the pair unique, so
two numbers are equal exactly when sign, mantissa and shift are.  Quotients are
rounded to the nearest number, and to the even mantissa halfway between two.
-/

namespace FeatureFlags.Decimal

def twoTo (exponent : Nat) : Nat := Nat.pow 2 exponent

def tenTo (exponent : Nat) : Nat := Nat.pow 10 exponent

/-- The unit of the format is `2 ^ -1074`. -/
def unitExponent : Nat := 1074

/-- The multiples of the unit that the format holds, each in one way. -/
def Canonical (mantissa shift : Nat) : Prop :=
  mantissa < twoTo 53 ∧ shift ≤ 2045 ∧ (twoTo 52 ≤ mantissa ∨ shift = 0)

instance (mantissa shift : Nat) : Decidable (Canonical mantissa shift) :=
  inferInstanceAs (Decidable (_ ∧ _ ∧ (_ ∨ _)))

structure Binary64 where
  negative : Bool
  mantissa : Nat
  shift : Nat
  canonical : Canonical mantissa shift
  deriving DecidableEq

def roundHalfEven (numerator denominator : Nat) : Nat :=
  let quotient := numerator / denominator
  let twice := 2 * (numerator % denominator)
  if twice < denominator then quotient
  else if denominator < twice then quotient + 1
  else quotient + quotient % 2

namespace Binary64

def zero (negative : Bool) : Binary64 :=
  ⟨negative, 0, 0, by decide⟩

def isZero (x : Binary64) : Bool := x.mantissa == 0

def units (x : Binary64) : Nat := x.mantissa * twoTo x.shift

def ofQuotient? (negative : Bool) (numerator denominator : Nat) :
    Option Binary64 :=
  let scaled := numerator * twoTo unitExponent
  let shift := (scaled / denominator).log2 - 52
  let mantissa := roundHalfEven scaled (denominator * twoTo shift)
  let (mantissa, shift) :=
    if mantissa = twoTo 53 then (twoTo 52, shift + 1) else (mantissa, shift)
  if canonical : Canonical mantissa shift then
    some ⟨negative, mantissa, shift, canonical⟩
  else none

def times? (x y : Binary64) : Option Binary64 :=
  ofQuotient? x.negative (x.units * y.units) (twoTo (2 * unitExponent))

def over? (x y : Binary64) : Option Binary64 :=
  ofQuotient? x.negative x.units y.units

def largestPower : Nat := 308

def powerOfTen? (exponent : Nat) : Option Binary64 :=
  ofQuotient? false (tenTo exponent) 1

def raise? (x : Binary64) (exponent : Nat) : Option Binary64 :=
  if x.isZero then some x
  else if exponent ≤ largestPower then
    (powerOfTen? exponent).bind x.times?
  else none

/--
The number divided by a power of ten.  Beyond the largest power the division is
done in steps, each rounded.
-/
def lower? (x : Binary64) (exponent : Nat) : Option Binary64 :=
  if exponent ≤ largestPower then
    (powerOfTen? exponent).bind x.over?
  else if x.isZero then some x
  else
    ((powerOfTen? largestPower).bind x.over?).bind fun y =>
      y.lower? (exponent - largestPower)
  termination_by exponent
  decreasing_by simp only [largestPower] at *; omega

def ofDecimal? (negative : Bool) (significand : Nat) (exponent : Int) :
    Option Binary64 :=
  (ofQuotient? negative significand 1).bind fun x =>
    match exponent with
    | .ofNat exponent => x.raise? exponent
    | .negSucc exponent => x.lower? (exponent + 1)

end Binary64

end FeatureFlags.Decimal
