import FeatureFlags.Decimal.Binary64

/-!
# Shortest decimals

Every real number close enough to a binary64 number rounds to it.  Among the
decimals that do, `Binary64.shortest` picks one on the coarsest decimal grid,
which makes its digits fewest, and of two on that grid the nearer one.

All quantities are whole numbers: a quarter of the unit `2 ^ -1074`, divided by
`10 ^ 324`, measures both the interval of the number and the steps of the grid.
-/

namespace FeatureFlags.Decimal

def finestGrid : Nat := 324

structure Interval where
  low : Nat
  high : Nat
  closed : Bool

def Interval.holds (interval : Interval) (point : Nat) : Bool :=
  if interval.closed then interval.low ≤ point && point ≤ interval.high
  else interval.low < point && point < interval.high

/-- A decimal `digits * 10 ^ (grid - 324)`. -/
structure GridPoint where
  digits : Nat
  grid : Nat

def gridStep (grid : Nat) : Nat := twoTo (unitExponent + 2) * tenTo grid

/--
The neighbour of `value` on the grid that lies in the interval; of two the
nearer, and halfway between them the even one.
-/
def neighbour? (interval : Interval) (value grid : Nat) : Option Nat :=
  let step := gridStep grid
  let below := value / step
  match interval.holds (below * step), interval.holds ((below + 1) * step) with
  | false, false => none
  | true, false => some below
  | false, true => some (below + 1)
  | true, true => some (roundHalfEven value step)

def coarsest (interval : Interval) (value : Nat) : Nat → GridPoint
  | 0 => ⟨(neighbour? interval value 0).getD 0, 0⟩
  | grid + 1 =>
    match neighbour? interval value (grid + 1) with
    | some digits => ⟨digits, grid + 1⟩
    | none => coarsest interval value grid

namespace Binary64

/-- What rounds to the number: the ends do when the mantissa is even. -/
def interval (x : Binary64) : Interval :=
  let scale := twoTo x.shift * tenTo finestGrid
  let gap := if x.mantissa = twoTo 52 ∧ x.shift ≠ 0 then 1 else 2
  { low := (4 * x.mantissa - gap) * scale
    high := (4 * x.mantissa + 2) * scale
    closed := x.mantissa % 2 == 0 }

def shortest (x : Binary64) : GridPoint :=
  coarsest x.interval (4 * x.units * tenTo finestGrid) (finestGrid + 309)

end Binary64

/--
Where a number is written with a point in its place: from the decimal exponent
`least` to `greatest`.  Outside, one digit stands before the point and the
exponent follows with its sign.
-/
structure Layout where
  least : Int
  greatest : Int

def zeros (count : Nat) : List Char := List.replicate count '0'

def fraction (digits : List Char) : List Char :=
  if digits.isEmpty then ['0'] else digits

def scientific (digits : List Char) (exponent : Int) : List Char :=
  let point := if digits.length ≤ 1 then [] else '.' :: digits.drop 1
  let sign := if exponent < 0 then '-' else '+'
  digits.take 1 ++ point ++ 'e' :: sign :: Nat.toDigits 10 exponent.natAbs

def Layout.text (layout : Layout) (digits : List Char) (exponent : Int) :
    List Char :=
  if exponent < layout.least ∨ layout.greatest < exponent then
    scientific digits exponent
  else
    match exponent with
    | .negSucc below => '0' :: '.' :: (zeros below ++ digits)
    | .ofNat places =>
      let whole := digits.take (places + 1)
      whole ++ zeros (places + 1 - whole.length) ++
        '.' :: fraction (digits.drop (places + 1))

def Binary64.text (layout : Layout) (x : Binary64) : List Char :=
  let sign := if x.negative then ['-'] else []
  if x.isZero then sign ++ layout.text ['0'] 0
  else
    let decimal := x.shortest
    let digits := Nat.toDigits 10 decimal.digits
    sign ++ layout.text digits
      (digits.length - 1 + (decimal.grid - finestGrid : Int))

end FeatureFlags.Decimal
