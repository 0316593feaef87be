/-!
# Binary floating point numbers

A finite number of the 64-bit binary format is a sign, a significand below `2 ^ 53` and an exponent
of two. Decimal input goes to the nearest such number, a tie to the even significand, in exact
integer arithmetic.
-/

namespace QuerySplice.Number

/-- The quotient rounded to the nearest whole number, a tie to the even one. -/
def roundDiv (num den : Nat) : Nat :=
  let quotient := num / den
  let remainder := num % den
  if 2 * remainder > den ∨ (2 * remainder = den ∧ quotient % 2 = 1) then quotient + 1
  else quotient

/-- The number `significand * 2 ^ exponent` with its sign, which zero has as well. -/
structure Binary64 where
  negative : Bool
  significand : Nat
  exponent : Int
  deriving DecidableEq, Repr

namespace Binary64

/-- The least exponent, at which the numbers near zero are spaced. -/
def leastExponent : Int := -1074

/-- A ratio with numerator and denominator in units of `base ^ exponent`. -/
def inUnits (base : Nat) (exponent : Int) (num den : Nat) : Nat × Nat :=
  if 0 ≤ exponent then (num, den * base.pow exponent.toNat)
  else (num * base.pow (-exponent).toNat, den)

/-- The exponent at which the ratio has a significand of 53 bits, or the least exponent. -/
def exponentFor (num den : Nat) : Int :=
  let guess := max leastExponent ((num.log2 : Int) - den.log2 - 52)
  let units := inUnits 2 guess num den
  if units.1 / units.2 < Nat.pow 2 52 then max leastExponent (guess - 1) else guess

/-- The number nearest to a ratio. -/
def ofRatio (negative : Bool) (num den : Nat) : Binary64 :=
  if num = 0 then ⟨negative, 0, leastExponent⟩
  else
    let exponent := exponentFor num den
    let units := inUnits 2 exponent num den
    let significand := roundDiv units.1 units.2
    if significand = Nat.pow 2 53 then ⟨negative, Nat.pow 2 52, exponent + 1⟩
    else ⟨negative, significand, exponent⟩

/-- The number nearest to `digits * 10 ^ exponent`. -/
def ofDecimal (negative : Bool) (digits : Nat) (exponent : Int) : Binary64 :=
  if 0 ≤ exponent then ofRatio negative (digits * Nat.pow 10 exponent.toNat) 1
  else ofRatio negative digits (Nat.pow 10 (-exponent).toNat)

def ofInt (n : Int) : Binary64 := ofRatio (decide (n < 0)) n.natAbs 1

/-- The greatest exponent. -/
def greatestExponent : Int := 971

/-- Whether the exponent is one that the format has. -/
def isFinite (x : Binary64) : Bool := decide (x.exponent ≤ greatestExponent)

/-- The magnitude as a ratio. -/
def ratio (x : Binary64) : Nat × Nat :=
  if 0 ≤ x.exponent then (x.significand * Nat.pow 2 x.exponent.toNat, 1)
  else (x.significand, Nat.pow 2 (-x.exponent).toNat)

/-- The whole number next to `x` on the way to zero. -/
def truncate (x : Binary64) : Int :=
  let magnitude : Int := ((x.ratio.1 / x.ratio.2 : Nat) : Int)
  if x.negative then -magnitude else magnitude

end Binary64

end QuerySplice.Number
