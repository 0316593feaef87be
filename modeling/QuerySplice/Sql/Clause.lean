import QuerySplice.Fault
import QuerySplice.Sql.Keyword

/-!
# The clauses of a query

A query may hold six clauses that are edited here, and the database expects them in one order.
The earliest of several clauses decides where a new clause goes; when `LIMIT` is one of them, its
per-group form counts as well.
-/

namespace QuerySplice.Sql

inductive Clause
  | filter
  | group
  | order
  | limit
  | settings
  | format
  deriving DecidableEq, Repr

namespace Clause

/-- The clauses in the order the database expects. -/
def all : List Clause := [filter, group, order, limit, settings, format]

def keyword : Clause → Keyword
  | filter => ⟨["WHERE".toList]⟩
  | group => ⟨["GROUP".toList, "BY".toList]⟩
  | order => ⟨["ORDER".toList, "BY".toList]⟩
  | limit => ⟨["LIMIT".toList]⟩
  | settings => ⟨["SETTINGS".toList]⟩
  | format => ⟨["FORMAT".toList]⟩

def name (c : Clause) : Text := c.keyword.name

/-- The clause of this name, in any letter case. -/
def ofName? (name : Text) : Option Clause :=
  all.find? fun c => c.name == Text.inCapitals name

/-- The clauses that come after `c`, nearest first. -/
def following (c : Clause) : List Clause := (all.dropWhile (· != c)).tail

def followingKeywords (c : Clause) : List Keyword := c.following.map keyword

/-- The offset at which the clause begins in the main query. -/
def position? (c : Clause) (sql : Text) : Option Nat := c.keyword.position? sql

end Clause

/-- The places at which `k` ends what stands before it. -/
def Keyword.boundaries (k : Keyword) (sql : Text) : List (Option Nat) :=
  if k.name == "LIMIT".toList then [k.position? sql, limitByPosition? sql] else [k.position? sql]

/-- The earliest place of any of the keywords. -/
def firstPosition? (keywords : List Keyword) (sql : Text) : Option Nat :=
  ((keywords.flatMap fun k => k.boundaries sql).filterMap id).min?

/-- The length of the keyword at offset `position`. A position before the start reads at the
start and one past the end reads at the end, but the length is counted from the position given. -/
def lengthAt (sql : Text) (position : Int) (k : Keyword) : Int :=
  let place := min position.toNat sql.length
  match k.rest? (sql.drop place) with
  | some rest => (sql.length - rest.length : Nat) - position
  | none => 0

/-- The length of the keyword at a position that can be asked about, which is one that fits the
word for positions. -/
def askedLength (sql : Text) (position : Int) (k : Keyword) : Except Fault Int :=
  if Number.Word.size.holds position then .ok (lengthAt sql position k)
  else .error (.beyondWord .size)

end QuerySplice.Sql
