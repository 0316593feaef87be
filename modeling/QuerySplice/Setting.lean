import QuerySplice.Fault
import QuerySplice.Sql.Direction
import QuerySplice.Sql.Limit
import QuerySplice.Value

/-!
# Settings of any type

A setting is a value that nobody has checked. It is read as the type it is used at, and only when
it is used: a value of another type is a fault then, whose cause is what the value cannot do.
-/

namespace QuerySplice.Value

open Text

/-- The items of a value that can be gone through: the characters of a text, the items of a list,
and the names of a record. -/
def items : Value → Except Fault (List Value)
  | text s => .ok (s.map fun c => text [c])
  | list vs => .ok vs
  | record fields => .ok (fields.map fun f => text f.1)
  | v => .error (.notIterable v.typeName)

/-- A value as a text, where the text is asked to do `operation`. -/
def asText (v : Value) (operation : String) : Except Fault Text :=
  match v with
  | text s => .ok s
  | v => .error (.noOperation v.typeName operation.toList)

/-- A value as the name of a column in a query. -/
def asName (v : Value) : Except Fault Text := v.asText "replace"

/-- A value as a limit of rows. -/
def asLimit : Value → Except Fault Sql.Limit
  | int n => .ok (.whole n)
  | float x => .ok (.fraction x)
  | bool b => .ok (.truth b)
  | v => .error (.notOrdered v.typeName)

/-- The paging direction of a sort order. An order that is not set pages backward. -/
def asDirection (v : Value) : Except Fault Sql.Direction := do
  if v.isSet then return Sql.Direction.ofSortOrder (← v.asText "strip") else return .backward

/-- The items of a list of columns. A list that is not set is empty. -/
def asColumns (v : Value) : Except Fault (List Value) :=
  if v.isSet then v.items else .ok []

/-! ## Values as names of fields -/

/-- The number that a value stands for, as a ratio. -/
def number? : Value → Option (Int × Nat)
  | bool b => some (if b then 1 else 0, 1)
  | int n => some (n, 1)
  | float x => some (if x.negative then -(x.ratio.1 : Int) else x.ratio.1, x.ratio.2)
  | _ => none

/-- Whether two values name the same field. Numbers do if they are equal, whatever their types. -/
def sameName : Value → Value → Bool
  | text s, text t => s == t
  | null, null => true
  | v, w =>
    match v.number?, w.number? with
    | some (a, b), some (c, d) => a * d == c * b
    | _, _ => false

/-- A value that may name a field. Lists and records may not. -/
def checkedName (v : Value) : Except Fault Value :=
  match v with
  | list _ | record _ => .error (.unhashable v.typeName)
  | v => .ok v

/-- The field that a value names. The fields of a record are named by texts alone. -/
def fieldNamed (fields : List (Text × Value)) (name : Value) : Except Fault (Option Value) := do
  match ← name.checkedName with
  | text s => return field? fields s
  | _ => return none

end QuerySplice.Value
