import QuerySplice.CommandLine.Arguments
import QuerySplice.CommandLine.WorkingDirectory
import QuerySplice.Sql.Clause
import QuerySplice.Text.Decimal
import QuerySplice.Sql.Direction

/-!
# Commands

A command line has options for all commands, then the name of a command and that command's own
arguments. Values are checked in the order in which they are given, positions after the options,
and an option that has to be there is missed after that; positions that no command takes are the
last thing to be refused.
-/

namespace QuerySplice.CommandLine

open Text

/-- The options in front of the command. -/
structure Global where
  config : Option Text
  logLevel : Option Text
  /-- The command's name and arguments. -/
  rest : List Text

/-- A query that is an argument, or is read from the input. -/
abbrev Query := Option Text

inductive Command
  | locate (clause : Sql.Clause) (sql : Query)
  | injectLimit (sql : Query) (limit : Option Int) (check : Bool)
  | injectOrder (sql : Query) (column : Option Text) (order : Option Sql.Order) (check : Bool)
  | page (sql : Query) (timeColumn : Option Text) (timeExpression : Text)
      (direction : Option Text) (limit : Option Int) (filters : List Text) (check : Bool)
  | shell

def valued (name : String) : OptionSpec := ⟨[name.toList], true⟩

def flag (name : String) : OptionSpec := ⟨[name.toList], false⟩

/-- Splits arguments that may also ask for help. A request for help goes before all faults of the
values. -/
def splitOrHelp (specs : List OptionSpec) (mixed : Bool) (args : List Text) :
    Except UsageFault Arguments := do
  let a ← split (specs ++ [flag "--help"]) mixed [] args
  if a.hasFlag "--help" then .error .help else return a

def globalSpecs : List OptionSpec :=
  [⟨["--config".toList, "-c".toList], true⟩, valued "--log-level"]

/-- Checks that a path leads to a file. -/
def checkFile (entry : Text → Entry) (path : Text) : Except UsageFault Unit :=
  let refuse (reason : String) :=
    .error (.invalidValue "'-c' / '--config'".toList
      ("File ".toList ++ quoted path ++ reason.toList))
  if path.contains '\x00' then .error .nullInPath
  else
    match entry path with
    | .missing | .beyondFile | .nameTooLong => refuse " does not exist."
    | .directory => refuse " is a directory."
    | .file _ | .sink => .ok ()

/-- Reads the options in front of the command. A configuration has to be a file. -/
def Global.read (entry : Text → Entry) (args : List Text) : Except UsageFault Global := do
  if args.isEmpty then .error .nothing
  let a ← splitOrHelp globalSpecs false args
  let config := a.value? "--config"
  if let some path := config then checkFile entry path
  return ⟨config, a.value? "--log-level", a.positions⟩

/-- Reads the value of `--limit`. -/
def readLimit (a : Arguments) : Except UsageFault (Option Int) :=
  match a.value? "--limit" with
  | none => .ok none
  | some given =>
    match readInt? given with
    | some n => .ok (some n)
    | none =>
      .error (.invalidValue "'--limit'".toList
        (quoted given ++ " is not a valid integer.".toList))

/-- The query among the positions, which may be missing. No position may be left over. -/
def readQuery : List Text → Except UsageFault Query
  | [] => .ok none
  | [sql] => .ok (some sql)
  | _ :: extra => .error (.extraArguments extra)

/-- The clauses as choices. -/
def clauseHint : Text :=
  "'\x7b".toList ++
    List.intercalate ['|'] (Sql.Clause.all.map fun c => c.name.map folded) ++ "\x7d'".toList

def readClause (given : Text) : Except UsageFault Sql.Clause :=
  match choice? (Sql.Clause.all.map fun c => (c.name, c)) given with
  | some c => .ok c
  | none =>
    .error (.invalidValue clauseHint (notAChoice (Sql.Clause.all.map Sql.Clause.name) given))

def readOrder (a : Arguments) : Except UsageFault (Option Sql.Order) :=
  let orders := [Sql.Order.ascending, Sql.Order.descending]
  match a.value? "--direction" with
  | none => .ok none
  | some given =>
    match choice? (orders.map fun o => (o.text, o)) given with
    | some o => .ok (some o)
    | none =>
      .error (.invalidValue "'--direction'".toList (notAChoice (orders.map Sql.Order.text) given))

namespace Command

def readLocate (args : List Text) : Except UsageFault Command := do
  let a ← splitOrHelp [] true args
  match a.positions with
  | [] =>
    .error (.missingArgument clauseHint (Sql.Clause.all.map fun c => c.name.map folded))
  | keyword :: rest => return locate (← readClause keyword) (← readQuery rest)

def readInjectLimit (args : List Text) : Except UsageFault Command := do
  let a ← splitOrHelp [valued "--limit", flag "--check"] true args
  let limit ← readLimit a
  return injectLimit (← readQuery a.positions) limit (a.hasFlag "--check")

def readInjectOrder (args : List Text) : Except UsageFault Command := do
  let a ← splitOrHelp [valued "--column", valued "--direction", flag "--check"] true args
  let order ← readOrder a
  return injectOrder (← readQuery a.positions) (a.value? "--column") order (a.hasFlag "--check")

def readPage (args : List Text) : Except UsageFault Command := do
  let a ← splitOrHelp
    [valued "--time-column", valued "--time-expr", valued "--direction", valued "--limit",
      valued "--filter", flag "--check"] true args
  let limit ← readLimit a
  match a.value? "--time-expr" with
  | none => .error (.missingOption "--time-expr".toList)
  | some timeExpression =>
    return page (← readQuery a.positions) (a.value? "--time-column") timeExpression
      (a.value? "--direction") limit (a.values "--filter") (a.hasFlag "--check")

def readShell (args : List Text) : Except UsageFault Command := do
  let a ← splitOrHelp [] true args
  match a.positions with
  | [] => return shell
  | extra => .error (.extraArguments extra)

/-- The commands by name, each with the reader of its arguments. -/
def readers : List (String × (List Text → Except UsageFault Command)) :=
  [("locate", readLocate), ("inject-limit", readInjectLimit),
   ("inject-order-by", readInjectOrder), ("context", readPage), ("shell", readShell)]

/-- The reader of the command of this name, given all that follows the options in front of the
command. If there is no such command and the name looks like an option, the arguments are first
read once more as options, as they may hold a fault that says more. -/
def reader (entry : Text → Entry) (name : Text) (args : List Text) :
    Except UsageFault (List Text → Except UsageFault Command) :=
  match readers.find? fun r => r.1.toList == name with
  | some r => .ok r.2
  | none => do
    if isOption name then
      let _ ← Global.read entry (name :: args)
    .error (.noSuchCommand name (closeNames (readers.map fun r => r.1.toList) name))

/-- The query that the command is about, if it is about one. -/
def query? : Command → Option Query
  | locate _ sql | injectLimit sql _ _ | injectOrder sql _ _ _ | page sql _ _ _ _ _ _ => some sql
  | shell => none

end Command

/-- Whether a query is to be read from the input: it is missing, or a hyphen stands for it. -/
def Query.isInput (q : Query) : Bool := q.isNone || q == some ['-']

/-- Whether a command line asks for a query that is to be read from the input. -/
def readsInput (args : List Text) : Bool :=
  let command? : Except UsageFault Command := do
    let entry : Text → Entry := fun _ => .file .null
    let options ← Global.read entry args
    match options.rest with
    | [] => .error .missingCommand
    | name :: args => (← Command.reader entry name args) args
  match command? with
  | .ok command => command.query?.any Query.isInput
  | .error _ => false

end QuerySplice.CommandLine
