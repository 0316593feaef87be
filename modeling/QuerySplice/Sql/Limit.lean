import QuerySplice.Number.Shortest

/-!
# Limits of rows

A limit is a whole number as a rule. A configuration may also hold a number with a fraction or a
truth value in its place, and these are written into the query as they are.
-/

namespace QuerySplice.Sql

open Text

inductive Limit
  | whole (n : Int)
  | fraction (x : Number.Binary64)
  | truth (b : Bool)
  deriving DecidableEq, Repr

namespace Limit

instance : Coe Int Limit := ⟨whole⟩

/-- Whether the limit is above zero. Only then it limits anything. -/
def isPositive : Limit → Bool
  | whole n => decide (0 < n)
  | fraction x => !x.negative && x.significand != 0
  | truth b => b

def text : Limit → Text
  | whole n => intText n
  | fraction x => x.text
  | truth true => "True".toList
  | truth false => "False".toList

end Limit

end QuerySplice.Sql
