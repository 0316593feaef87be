import QuerySplice.Text.WordChar
import QuerySplice.Sql.Clause

/-!
# Aggregate queries

A query that calls an aggregate function in its projection and has no `GROUP BY` returns one row,
so it takes no `ORDER BY`. The projection is the text between the main `SELECT` and its `FROM`. A
call is one of the listed names as a whole word in any letter case, with an opening parenthesis
behind it.
-/

namespace QuerySplice.Sql

open Text

/-- Functions that make one row of an ungrouped result. -/
def aggregateNames : List String :=
  ["count", "sum", "avg", "min", "max", "any", "anyLast", "argMin", "argMax", "uniq", "uniqExact",
   "uniqHLL12", "uniqCombined", "uniqCombined64", "groupArray", "groupUniqArray", "quantile",
   "quantiles", "median"]

/-- Whether the text starts with a call of the function `name`. -/
def startsCall (s : Text) (name : Text) : Bool :=
  match readWord name s with
  | some rest => continuesCall rest
  | none => false

def startsAggregate (s : Text) : Bool :=
  aggregateNames.any fun name => startsCall s name.toList

/-- Whether an aggregate call starts at a word boundary of the text. The first argument says
whether a word character comes before it. -/
def callsAggregateFrom : Bool → Text → Bool
  | _, [] => false
  | inWord, c :: s =>
    (inWord != isWordChar c && startsAggregate (c :: s)) || callsAggregateFrom (isWordChar c) s

def callsAggregate (s : Text) : Bool := callsAggregateFrom false s

/-- The text between the main `SELECT` and its `FROM`. -/
def projection? (sql : Text) : Option Text := do
  let p ← Keyword.select.position? sql
  let body := sql.drop (p + Keyword.select.length (sql.drop p))
  let q ← Keyword.from.position? body
  return body.take q

/-- Whether the query aggregates without grouping. -/
def isPlainAggregate (sql : Text) : Bool :=
  (Clause.group.position? sql).isNone &&
    match projection? sql with
    | some projection => callsAggregate projection
    | none => false

end QuerySplice.Sql
