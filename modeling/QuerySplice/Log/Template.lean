import QuerySplice.Fault
import QuerySplice.Value

/-!
# Message templates

A message may have places for arguments: `%s` takes any value and `%d` a number, and a doubled
percent sign stands for itself. The arguments are used in order and all of them must be used,
except that a single record that is not empty may stay unused. A message without arguments is no
template and is kept as it is.
-/

namespace QuerySplice.Log

open Text

/-- The text of a number in a `%d` place. A floating point number loses its fraction. -/
def numberText : Value → Except Fault Text
  | .int n => .ok (intText n)
  | .bool b => .ok (if b then ['1'] else ['0'])
  | .float x => .ok (intText x.truncate)
  | v => .error (.notANumber v.typeName)

/-- Fills the rest of a template, whose first character has the given index. -/
def fillFrom (mayLeave : Bool) (index : Nat) : Text → List Value → Except Fault Text
  | [], args => if args.isEmpty || mayLeave then .ok [] else .error .unusedArguments
  | ['%'], _ => .error .incompleteFormat
  | '%' :: '%' :: s, args => do return '%' :: (← fillFrom mayLeave (index + 2) s args)
  | '%' :: c :: s, args =>
    if c = 's' ∨ c = 'd' then
      match args with
      | [] => .error .missingArguments
      | v :: args => do
        let shown ← if c = 's' then .ok v.shown else numberText v
        return shown ++ (← fillFrom mayLeave (index + 2) s args)
    else .error (.unknownFormat c (index + 1))
  | c :: s, args => do return c :: (← fillFrom mayLeave (index + 1) s args)

/-- Whether the arguments are a single record that is not empty. -/
def isSingleRecord : List Value → Bool
  | [.record fields] => !fields.isEmpty
  | _ => false

def fill (template : Text) (args : List Value) : Except Fault Text :=
  if args.isEmpty then .ok template else fillFrom (isSingleRecord args) 0 template args

end QuerySplice.Log
