import QuerySplice.Setting
import QuerySplice.Sql.Direction
import QuerySplice.Sql.Edit

/-!
# Context pages

A context page holds the rows next to a reference row: those at or after its time, or at or before
it, that agree with it on chosen columns. The page is the user's own query with these conditions
added, and with its order and its limit replaced.
-/

namespace QuerySplice.Sql

/-- Rows of a page agree with the reference row on a column. -/
structure Filter where
  column : Text
  value : Text
  deriving DecidableEq, Repr

def Filter.condition (f : Filter) : Text :=
  quoteName f.column ++ " = ".toList ++ quoteLiteral f.value

/-- Rows of a page lie on one side of the reference time. -/
def timeBound (column expression : Text) (direction : Direction) : Text :=
  quoteName column ++ ' ' :: direction.comparison ++ ' ' :: expression

structure Page where
  timeColumn : Text
  timeExpression : Text
  direction : Direction
  limit : Limit
  filters : List Filter
  deriving DecidableEq, Repr

namespace Page

/-- The page without a time column, which leaves every query as it is. -/
def blank (direction : Direction) : Page := ⟨[], [], direction, .whole 0, []⟩

/-- Adds the condition of a filter. A filter on a column without a name adds nothing. -/
def addFilter (sql : Text) (f : Filter) : Text :=
  if f.column.isEmpty then sql else addCondition f.condition sql

/-- Whether the query and the time column are both there: otherwise no page is made of it. -/
def applies (page : Page) (sql : Text) : Bool :=
  !sql.isEmpty && !page.timeColumn.isEmpty

/-- The query that fetches the page. -/
def query (page : Page) (sql : Text) : Text :=
  if page.applies sql then
    let bounded :=
      addCondition (timeBound page.timeColumn page.timeExpression page.direction) sql
    let filtered := page.filters.foldl addFilter bounded
    setLimit page.limit (setOrder page.timeColumn page.direction.order.text filtered)
  else sql

end Page

/-- A page whose direction is still to be read from a text, and whose column and limit are settings
of any type. -/
structure PageRequest where
  timeColumn : Value
  timeExpression : Text
  direction : Text
  limit : Value
  filters : List Filter

namespace PageRequest

def page (r : PageRequest) : Except Fault Page := do
  match Direction.read? r.direction with
  | some direction =>
    return ⟨← r.timeColumn.asName, r.timeExpression, direction, ← r.limit.asLimit, r.filters⟩
  | none => throw (.unknownDirection r.direction)

/-- The page to make of a query. Nothing is read when there is nothing to do. -/
def page? (r : PageRequest) (sql : Text) : Except Fault (Option Page) :=
  if sql.isEmpty || !r.timeColumn.isSet then .ok none else r.page.map some

end PageRequest

end QuerySplice.Sql
