import QuerySplice.Text.Decimal
import QuerySplice.Sql.Clause
import QuerySplice.Sql.Limit
import QuerySplice.Sql.Quote

/-!
# Editing the clauses of a query

Each edit takes a query and returns the edited query. An edit finds its place by the scan alone,
so a clause of a subquery is never touched, and it copies everything outside that place. One
trailing semicolon is dropped by the edits that may add text at the end.
-/

namespace QuerySplice.Sql

open Text

/-- The query without one trailing semicolon and the blanks around it. A query that ends in no
semicolon is kept as it is, trailing blanks included. -/
def trimTerminator (sql : Text) : Text :=
  match (trimEnd sql).getLast? with
  | some ';' => trimEnd (trimEnd sql).dropLast
  | _ => sql

/-- Puts `clause` in front of the earliest of the keywords, or at the end. -/
def insertBefore (keywords : List Keyword) (clause sql : Text) : Text :=
  match firstPosition? keywords sql with
  | some p => sql.take p ++ clause ++ ' ' :: sql.drop p
  | none => sql ++ ' ' :: clause

/-- Splits the text behind the word `WHERE` into the predicate and what follows it. -/
def splitPredicate (body : Text) : Text × Text :=
  match firstPosition? Clause.filter.followingKeywords body with
  | some p => (body.take p, body.drop p)
  | none => (body, [])

/-- Joins a condition to the text behind the word `WHERE`. A predicate with a top-level `OR` is
put in parentheses, so that the condition binds all of it. -/
def joinCondition (condition body : Text) : Text :=
  let (predicate, tail) := splitPredicate body
  if (Keyword.or.position? predicate).isNone then
    ' ' :: condition ++ " AND".toList ++ body
  else
    let head := ' ' :: condition ++ " AND (".toList ++ trim predicate ++ [')']
    if tail.isEmpty then head else head ++ ' ' :: tail

/-- Adds a condition to the main query. It goes first in an existing `WHERE`; without one, a new
clause is put in front of the clauses that follow `WHERE`. -/
def addCondition (condition sql : Text) : Text :=
  if sql.isEmpty || condition.isEmpty then sql
  else
    let sql := trimTerminator sql
    match Clause.filter.position? sql with
    | none =>
      insertBefore Clause.filter.followingKeywords ("WHERE ".toList ++ condition) sql
    | some p =>
      let bodyStart := p + Clause.filter.keyword.length (sql.drop p)
      sql.take bodyStart ++ joinCondition condition (sql.drop bodyStart)

/-- Removes the `ORDER BY` of the main query and keeps the clauses behind it. -/
def removeOrder (sql : Text) : Text :=
  match Clause.order.position? sql with
  | none => sql
  | some p =>
    let trimmed := trimTerminator sql
    let rest := trimmed.drop p
    match firstPosition? Clause.order.followingKeywords rest with
    | some q => trimmed.take p ++ rest.drop q
    | none => trimEnd (trimmed.take p)

/-- What follows `LIMIT` and its numbers, if the text starts with them. -/
def readLimit (s : Text) : Option Text := do
  readLimitNumbers (← readWord "LIMIT".toList s)

/-- Removes the `LIMIT` of the main query. A clause behind it is kept; without one, so is the
text behind the numbers of the limit. -/
def removeLimit (sql : Text) : Text :=
  match Clause.limit.position? sql with
  | none => sql
  | some p =>
    let trimmed := trimTerminator sql
    let rest := trimmed.drop p
    match firstPosition? Clause.limit.followingKeywords rest with
    | some q => trimmed.take p ++ rest.drop q
    | none =>
      let head := trimEnd (trimmed.take p)
      match readLimit rest with
      | none => head
      | some tail =>
        let remaining := trim tail
        if remaining.isEmpty then head else head ++ ' ' :: remaining

def orderClause (column direction : Text) : Text :=
  "ORDER BY ".toList ++ quoteName column ++ ' ' :: direction

def limitClause (limit : Limit) : Text := "LIMIT ".toList ++ limit.text

/-- Sets the `ORDER BY` of the main query, in place of any it has. -/
def setOrder (column direction sql : Text) : Text :=
  if sql.isEmpty || column.isEmpty then sql
  else
    insertBefore Clause.order.followingKeywords (orderClause column direction)
      (removeOrder (trimTerminator sql))

/-- Sets the `LIMIT` of the main query, in place of any it has. -/
def setLimit (limit : Limit) (sql : Text) : Text :=
  if sql.isEmpty || !limit.isPositive then sql
  else
    insertBefore Clause.limit.followingKeywords (limitClause limit)
      (removeLimit (trimTerminator sql))

end QuerySplice.Sql
