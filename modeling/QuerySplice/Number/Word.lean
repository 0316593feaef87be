import QuerySplice.Text.Decimal

/-!
# Words of the machine

Whole numbers are unbounded, but some are handed on in a word of the machine, which holds numbers
with a sign up to a fixed count of bits.
-/

namespace QuerySplice.Number

inductive Word
  | int
  | long
  /-- The word for positions and sizes. -/
  | size
  deriving DecidableEq, Repr

namespace Word

/-- What a word is called in messages. -/
def name : Word → Text
  | .int => "C int".toList
  | .long => "C long".toList
  | .size => "C ssize_t".toList

/-- The bits of a word, the one for the sign included. -/
def bits : Word → Nat
  | .int => 32
  | .long | .size => 64

/-- How many numbers below zero fit the word. -/
def reach (w : Word) : Nat := Nat.pow 2 (w.bits - 1)

/-- Whether a number fits the word. -/
def holds (w : Word) (n : Int) : Bool := decide (-(w.reach : Int) ≤ n ∧ n < w.reach)

end Word

end QuerySplice.Number
