import QuerySplice.Session.Executor

/-!
# Browsing around a row

A browser fetches the rows next to a reference row, on either side of its time. Rows of a page
agree with the reference row on the columns that the browser is set to compare; a column that the
row lacks or that is null in it is not compared.

The column of the time, the limit of a page and the columns to compare are settings of any type,
and each is read when a page needs it.
-/

namespace QuerySplice

structure Browser where
  timeColumn : Value
  limit : Value
  filterColumns : List Value
  deriving Repr

namespace Browser

/-- The filter that a column of the reference row stands for. -/
def filter? (row : List (Text × Value)) (column : Value) : Except Fault (Option Sql.Filter) := do
  match ← Value.fieldNamed row column with
  | none | some .null => return none
  | some v => return some ⟨column.shown, v.shown⟩

/-- The filters of a row. A row without columns has none. -/
def filters (b : Browser) (row : List (Text × Value)) : Except Fault (List Sql.Filter) :=
  if row.isEmpty then .ok [] else do return (← b.filterColumns.mapM (filter? row)).reduceOption

/-- The page of a query next to a time. The direction is read from a text. -/
def page (b : Browser) (sql : Text) (time : Time.Stamp) (direction : Text)
    (row : List (Text × Value)) : Except Fault Sql.Page :=
  match time.expression? with
  | none => .error .dateOutOfRange
  | some timeExpression => do
    let filters ← b.filters row
    match Sql.Direction.read? direction with
    | none => throw (.unknownDirection direction)
    | some read =>
      let request : Sql.PageRequest :=
        ⟨b.timeColumn, timeExpression, direction, b.limit, filters⟩
      return (← request.page? sql).getD (.blank read)

/-- Fetches a page of the query. -/
def fetch (b : Browser) (source : Source) (sql : Text) (time : Time.Stamp) (direction : Text)
    (row : List (Text × Value)) : Action Table := do
  let page ← b.page sql time direction row
  (Executor.execute source sql).once (.ofProcessors [.page page])

end Browser

end QuerySplice
