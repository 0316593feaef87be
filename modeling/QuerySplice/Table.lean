import QuerySplice.Fault
import QuerySplice.Value

/-!
# Result tables

A table has named columns and rows with one value for each column. Names may repeat. A row read
by name is a record: a repeated name is kept once, at its first place with its last value.

Whether the values of a result can be read is up to the library that holds it. So a table comes with
the fault that reading its values ends in, if there is one: it can be passed on and its rows can be
counted, but none of its values is seen. A table that was read once can be read again, as a whole or
row by row.
-/

namespace QuerySplice

structure Table where
  names : List Text
  rows : List (List Value)
  /-- The fault that reading the values ends in, if they cannot be read. -/
  fault : Option Fault
  deriving Repr

namespace Table

def empty : Table := ⟨[], [], none⟩

/-- A column as a database delivers it. -/
structure Column where
  name : Text
  values : List Value

mutual

/-- Whether all times in a value are in the calendar, by their own clock and in universal time. -/
def inCalendar : Value → Bool
  | .time t _ => t.clock.isShown && t.universal?.isSome
  | .list items => allInCalendar items
  | .record fields => fieldsInCalendar fields
  | _ => true

def allInCalendar : List Value → Bool
  | [] => true
  | v :: rest => inCalendar v && allInCalendar rest

def fieldsInCalendar : List (Text × Value) → Bool
  | [] => true
  | (_, v) :: rest => inCalendar v && fieldsInCalendar rest

end

/-- The table of these columns. It has as many rows as its first column has values, and it cannot be
read if some time is out of the calendar. -/
def ofColumns (columns : List Column) : Table where
  names := columns.map (·.name)
  rows := (List.range ((columns.head?.map fun c => c.values.length).getD 0)).map fun i =>
    columns.map fun c => c.values.getD i .null
  fault := if columns.all fun c => allInCalendar c.values then none else some .dateOutOfRange

/-- The rows in the opposite order. -/
def reversed (t : Table) : Table := { t with rows := t.rows.reverse }

/-- A row read by name. -/
def record (t : Table) (row : List Value) : List (Text × Value) :=
  Value.setFields (t.names.zip row) []

/-- The table, if its values can be read. -/
def readable (t : Table) : Except Fault Table :=
  match t.fault with
  | none => .ok t
  | some fault => .error fault

end Table

end QuerySplice
