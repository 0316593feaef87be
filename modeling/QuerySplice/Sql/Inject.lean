import QuerySplice.Sql.Aggregate
import QuerySplice.Sql.Edit

/-!
# Injecting missing clauses

A query that is browsed gets a `LIMIT` and an `ORDER BY` unless it has its own. Each injection
first asks for a reason to leave the query alone. A limit is given to `SELECT` statements only, and
an order to all queries but plain aggregates.
-/

namespace QuerySplice.Sql

open Text

/-- Whether the main query has the clause. -/
def hasClause (c : Clause) (sql : Text) : Bool := (c.position? sql).isSome

/-- Whether the query begins with the word `SELECT`. -/
def isSelect (sql : Text) : Bool :=
  match readWord "SELECT".toList (trimStart sql) with
  | some rest => !continuesWord rest
  | none => false

/-- Why a query that could get a clause is left alone. -/
inductive Skip
  | hasLimit
  | notSelect
  | hasOrder
  | plainAggregate
  deriving DecidableEq, Repr

def limitSkip? (limit : Limit) (sql : Text) : Option Skip :=
  if sql.isEmpty || !limit.isPositive then none
  else if hasClause .limit sql then some .hasLimit
  else if !isSelect sql then some .notSelect
  else none

/-- Whether the query gets the limit. -/
def takesLimit (limit : Limit) (sql : Text) : Bool :=
  !sql.isEmpty && limit.isPositive && (limitSkip? limit sql).isNone

/-- Adds a `LIMIT` to a `SELECT` statement that has none. -/
def injectLimit (limit : Limit) (sql : Text) : Text :=
  if takesLimit limit sql then
    insertBefore Clause.limit.followingKeywords (limitClause limit) (trimTerminator sql)
  else sql

def orderSkip? (column sql : Text) : Option Skip :=
  if sql.isEmpty || column.isEmpty then none
  else if hasClause .order sql then some .hasOrder
  else if isPlainAggregate sql then some .plainAggregate
  else none

/-- Whether the query gets an order on the column. -/
def takesOrder (column sql : Text) : Bool :=
  !sql.isEmpty && !column.isEmpty && (orderSkip? column sql).isNone

/-- Adds an `ORDER BY` to a query that has none and is no plain aggregate. -/
def injectOrder (column direction sql : Text) : Text :=
  if takesOrder column sql then
    insertBefore Clause.order.followingKeywords (orderClause column direction)
      (trimTerminator sql)
  else sql

end QuerySplice.Sql
