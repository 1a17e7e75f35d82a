import FeatureFlags.Decimal.Shortest

/-!
# Numbers of a document

A number is a whole number of at most 64 bits or a finite binary64 number.  The
two are kept apart: `1` and `1.0` differ.
-/

namespace FeatureFlags.Json

def Fits (value : Int) : Prop :=
  -9223372036854775808 ≤ value ∧ value < 18446744073709551616

instance (value : Int) : Decidable (Fits value) :=
  inferInstanceAs (Decidable (_ ∧ _))

inductive Number
  | whole (value : Int) (fits : Fits value)
  | real (value : Decimal.Binary64)
  deriving DecidableEq

namespace Number

/-- Numbers are written with a point from `0.00001` up to, not including, `1e+16`. -/
def layout : Decimal.Layout := { least := -5, greatest := 15 }

def digits (value : Int) : List Char :=
  match value with
  | .ofNat value => Nat.toDigits 10 value
  | .negSucc below => '-' :: Nat.toDigits 10 (below + 1)

def chars : Number → List Char
  | whole value _ => digits value
  | real value => value.text layout

end Number

end FeatureFlags.Json
