import QuerySplice.Number.Shortest
import QuerySplice.Text.Quoted
import QuerySplice.Time.Stamp

/-!
# Values without a fixed type

Cells of a result, entries of a configuration and fields of a log record hold values whose type is
known only when they are read. This module holds the values, the name of each one's type, and
their texts. A value has one text by itself and another inside lists and records, where texts are
quoted and times are written part by part.
-/

namespace QuerySplice

open Text

inductive Value
  | null
  | bool (b : Bool)
  | int (n : Int)
  | float (x : Number.Binary64)
  | text (s : Text)
  /-- A time. The text of its zone inside lists and records is up to the library that read it. -/
  | time (t : Time.Stamp) (zone : Text := [])
  | list (items : List Value)
  /-- Fields in the order in which they were written. -/
  | record (fields : List (Text × Value))
  /-- A value of another type, with its texts by itself and inside lists and records. -/
  | other (type shown inner : Text) (set : Bool)
  deriving Repr

namespace Value

instance : Inhabited Value := ⟨null⟩

/-- The name of a value's type in messages. -/
def typeName : Value → Text
  | null => "NoneType".toList
  | bool _ => "bool".toList
  | int _ => "int".toList
  | float _ => "float".toList
  | text _ => "str".toList
  | time _ _ => "datetime".toList
  | list _ => "list".toList
  | record _ => "dict".toList
  | other type _ _ _ => type

/-- Whether a value counts as set: not null, false, zero or empty. -/
def isSet : Value → Bool
  | null => false
  | bool b => b
  | int n => n != 0
  | float x => x.significand != 0
  | text s => !s.isEmpty
  | time _ _ => true
  | list items => !items.isEmpty
  | record fields => !fields.isEmpty
  | other _ _ _ set => set

def isNull : Value → Bool
  | null => true
  | _ => false

/-- Puts a comma and a space between the parts. -/
def joined (parts : List Text) : Text := List.intercalate ", ".toList parts

/-- The text of a time inside a list or a record: its parts, and its zone if it has one. -/
def timeText (t : Time.Stamp) (zone : Text) : Text :=
  "datetime.datetime(".toList ++
    joined (t.clock.numbers.map natText ++
      if t.offset.isSome then ["tzinfo=".toList ++ zone] else []) ++ [')']

mutual

/-- The text of a value inside a list or a record. -/
def innerText : Value → Text
  | null => "None".toList
  | bool true => "True".toList
  | bool false => "False".toList
  | int n => intText n
  | float x => x.text
  | text s => quoted s
  | time t zone => timeText t zone
  | list items => '[' :: (joined (innerTexts items) ++ [']'])
  | record fields => '{' :: (joined (fieldTexts fields) ++ ['}'])
  | other _ _ inner _ => inner

def innerTexts : List Value → List Text
  | [] => []
  | v :: rest => v.innerText :: innerTexts rest

def fieldTexts : List (Text × Value) → List Text
  | [] => []
  | (key, v) :: rest => (quoted key ++ ':' :: ' ' :: v.innerText) :: fieldTexts rest

end

/-- The text of a value by itself. -/
def shown : Value → Text
  | text s => s
  | time t _ => t.text
  | other _ shown _ _ => shown
  | v => v.innerText

/-- A time by itself, and in a list that is shown. -/
example :
    let time : Value := .time ⟨⟨2024, 1, 2, 3, 4, 5, 0⟩, some 0⟩ "UTC".toList
    time.shown = "2024-01-02 03:04:05+00:00".toList ∧
      (list [time]).shown = "[datetime.datetime(2024, 1, 2, 3, 4, 5, tzinfo=UTC)]".toList := by
  decide

/-- Looks a field up by its name. The last of several fields of one name counts. -/
def field? (fields : List (Text × Value)) (name : Text) : Option Value :=
  (fields.reverse.find? fun f => f.1 == name).map (·.2)

/-- Sets a field: in place if there is one of this name, at the end otherwise. -/
def setField (name : Text) (v : Value) : List (Text × Value) → List (Text × Value)
  | [] => [(name, v)]
  | f :: fields => if f.1 = name then (name, v) :: fields else f :: setField name v fields

/-- Sets fields one after another. -/
def setFields (new old : List (Text × Value)) : List (Text × Value) :=
  new.foldl (fun fields f => setField f.1 f.2 fields) old

end Value

end QuerySplice
