import QuerySplice.Table

/-!
# Tables as lines of text

A table is drawn with borders of plus and minus signs. Each column is as wide as its longest text,
counted in code points, and texts are set to the left. The cells of a row come from its record, so
a row has fewer cells than the header when a name repeats. The last line counts the rows and tells
the time they took.
-/

namespace QuerySplice.Table

open Text

def cellText (v : Value) : Text :=
  if v.isNull then "NULL".toList else v.shown

/-- The cells of the rows. -/
def cells (t : Table) : List (List Text) :=
  t.rows.map fun row => (t.record row).map fun f => cellText f.2

/-- Widths that also hold the texts of one more row. -/
def widen : List Nat → List Text → List Nat
  | width :: widths, text :: row => max width text.length :: widen widths row
  | widths, [] => widths
  | [], _ :: _ => []

def widths (t : Table) : List Nat :=
  t.cells.foldl widen (t.names.map List.length)

/-- A text with a blank on both sides, filled up to the width of its column. -/
def cell (width : Nat) (text : Text) : Text :=
  ' ' :: (text ++ List.replicate (width - text.length) ' ' ++ [' '])

def rowLine (widths : List Nat) (row : List Text) : Text :=
  '|' :: (List.intercalate ['|'] ((widths.zip row).map fun p => cell p.1 p.2) ++ ['|'])

def border (widths : List Nat) : Text :=
  '+' :: (List.intercalate ['+'] (widths.map fun width => List.replicate (width + 2) '-') ++ ['+'])

/-- The drawn table. -/
def drawing (t : Table) : List Text :=
  let border := border t.widths
  [border, rowLine t.widths t.names, border] ++ t.cells.map (rowLine t.widths) ++ [border]

def summary (t : Table) (elapsed : Number.Binary64) : Text :=
  natText t.rows.length ++ " rows in ".toList ++ elapsed.fixedText ++ " ms".toList

/-- All lines of a table whose values can be read, given the milliseconds it took. -/
def lines (t : Table) (elapsed : Number.Binary64) : Except Fault (List Text) := do
  let t ← t.readable
  if elapsed.isFinite then return t.drawing ++ [t.summary elapsed] else throw .beyondFloats

end QuerySplice.Table
