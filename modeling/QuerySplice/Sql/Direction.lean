import QuerySplice.Text.Blank
import QuerySplice.Text.Case

/-!
# Directions of order and of paging

An `ORDER BY` sorts up or down. A context page walks forward or backward from the time of a row,
and each way fixes the order of the page and the comparison that bounds it.
-/

namespace QuerySplice.Sql

open Text

inductive Order
  | ascending
  | descending
  deriving DecidableEq, Repr

namespace Order

def text : Order → Text
  | ascending => "ASC".toList
  | descending => "DESC".toList

/-- The order written exactly so. -/
def ofText? (s : Text) : Option Order :=
  [ascending, descending].find? fun order => order.text == s

end Order

inductive Direction
  | forward
  | backward
  deriving DecidableEq, Repr

namespace Direction

def name : Direction → Text
  | forward => "forward".toList
  | backward => "backward".toList

/-- The order of a page's rows as the database returns them. -/
def order : Direction → Order
  | forward => .ascending
  | backward => .descending

/-- The comparison of a row's time with the time of the reference row. -/
def comparison : Direction → Text
  | forward => ">=".toList
  | backward => "<=".toList

/-- The direction written exactly so. -/
def ofName? (s : Text) : Option Direction :=
  [forward, backward].find? fun direction => direction.name == s

/-- Reads a direction in any letter case and with blanks around it. -/
def read? (s : Text) : Option Direction := ofName? ((trim s).map small)

/-- The paging direction of a panel with this sort order: ascending panels page forward, all
others backward, so that the newest rows come first. -/
def ofSortOrder (sortOrder : Text) : Direction :=
  let order := (trim sortOrder).map small
  if order = "ascending".toList ∨ order = "asc".toList then forward else backward

theorem read?_name (d : Direction) : read? d.name = some d := by
  cases d <;> decide

end Direction

end QuerySplice.Sql
