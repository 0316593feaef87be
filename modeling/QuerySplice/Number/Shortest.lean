import QuerySplice.Number.Binary64
import QuerySplice.Text.Decimal

/-!
# Floating point numbers in decimal

A number is written with the fewest digits that still read back as the same number, and among
those with the digits nearest to it. Magnitudes from `10 ^ -4` up to `10 ^ 16` are written
positionally with at least one digit behind the point, all others with an exponent of two digits
or more.

Where the number of places is fixed, the exact value is rounded and a tie goes to the even digit.
-/

namespace QuerySplice.Number

open Text

namespace Binary64

/-- The exponent of ten of the leading digit of a ratio that is not zero. -/
def leadingExponent (num den : Nat) : Int :=
  if den ≤ num then ((natText (num / den)).length : Int) - 1
  else -((natText ((den + num - 1) / num - 1)).length : Int)

/-- The ends of the interval of reals that read back as `x`, in quarters of its unit: the halves
of the way to its two neighbours. Below a power of two the neighbour is nearer. -/
def interval (x : Binary64) : Nat × Nat :=
  let below := if x.significand = Nat.pow 2 52 ∧ x.exponent ≠ leastExponent then 1 else 2
  (4 * x.significand - below, 4 * x.significand + 2)

/-- Whether `digits * 10 ^ exponent` reads back as the magnitude of `x`. The ends of the interval
belong to it when the significand is even. -/
def readsBack (x : Binary64) (digits : Nat) (exponent : Int) : Bool :=
  let quarter : Binary64 := ⟨false, 1, x.exponent - 2⟩
  let unit := quarter.ratio
  let candidate := inUnits 10 (-exponent) digits 1
  let value := candidate.1 * unit.2
  let low := x.interval.1 * unit.1 * candidate.2
  let high := x.interval.2 * unit.1 * candidate.2
  if x.significand % 2 = 0 then decide (low ≤ value ∧ value ≤ high)
  else decide (low < value ∧ value < high)

/-- The nearest number of `count` digits that reads back, with its exponent of ten. -/
def digitsOfCount? (x : Binary64) (count : Nat) : Option (Nat × Int) :=
  let exponent := leadingExponent x.ratio.1 x.ratio.2 + 1 - count
  let units := inUnits 10 exponent x.ratio.1 x.ratio.2
  let lower := units.1 / units.2
  let nearest := roundDiv units.1 units.2
  let other := if nearest = lower then lower + 1 else lower
  if x.readsBack nearest exponent then some (nearest, exponent)
  else if x.readsBack other exponent then some (other, exponent)
  else none

/-- The shortest digits that read back, without zeros at the end, and the exponent of ten of the
first digit. -/
def shortestDigits (x : Binary64) : Text × Int :=
  let exact := (x.ratio.1 / x.ratio.2, (0 : Int))
  let found := ((List.range 17).findSome? fun count => x.digitsOfCount? (count + 1)).getD exact
  let digits := natText found.1
  ((digits.reverse.dropWhile (· == '0')).reverse, found.2 + digits.length - 1)

/-- The digits with a point behind the place of the exponent. -/
def positional (digits : Text) (exponent : Int) : Text :=
  if exponent < 0 then
    '0' :: '.' :: (List.replicate (-exponent - 1).toNat '0' ++ digits)
  else
    let places := exponent.toNat + 1
    let fraction := digits.drop places
    digits.take places ++ List.replicate (places - digits.length) '0' ++
      '.' :: (if fraction.isEmpty then ['0'] else fraction)

def scientific (digits : Text) (exponent : Int) : Text :=
  let fraction := digits.drop 1
  digits.take 1 ++ (if fraction.isEmpty then [] else '.' :: fraction) ++
    'e' :: (if exponent < 0 then '-' else '+') :: padded 2 exponent.natAbs

def sign (x : Binary64) : Text := if x.negative then ['-'] else []

/-- The number in its shortest form. -/
def text (x : Binary64) : Text :=
  if x.significand = 0 then x.sign ++ "0.0".toList
  else
    let (digits, exponent) := x.shortestDigits
    x.sign ++
      if -4 ≤ exponent ∧ exponent < 16 then positional digits exponent
      else scientific digits exponent

/-- The number with two places behind the point. -/
def fixedText (x : Binary64) : Text :=
  let hundredths := roundDiv (100 * x.ratio.1) x.ratio.2
  x.sign ++ natText (hundredths / 100) ++ '.' :: padded 2 (hundredths % 100)

end Binary64

end QuerySplice.Number
