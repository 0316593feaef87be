import QuerySplice.CommandLine.Command
import QuerySplice.Log.Setup
import QuerySplice.Session.Shell
import QuerySplice.Sql.Check
import QuerySplice.Text.ControlSequence

/-!
# Running a command line

A run reads its arguments, takes the configuration, sets the log up and does the command. All it
does is in its trace, and `Outcome.outputs` turns the trace into what is seen outside: texts on
the two output streams, prompts, and calls of the database. Texts are written without control
sequences. Log records are on the error stream, those that pass the log's setup.
-/

namespace QuerySplice.CommandLine

open Text

/-- What a run finds around it. -/
structure Surroundings where
  args : List Text
  /-- What a path leads to. -/
  entry : Text → Entry
  /-- Why lines cannot be written to a path, if they cannot. -/
  refusal? : Text → Option Fault
  /-- The text on the input stream. -/
  input : Text
  /-- What the parser says about a query it is asked about. -/
  verdict : Sql.Verdict
  /-- The answers to the prompts of the shell. -/
  inputs : List Input

/-! ## Reading the configuration where it is needed -/

def orderOr (given : Option Sql.Order) (config : Config) : Except Fault Sql.Order :=
  match given with
  | some order => .ok order
  | none => config.logs.sortOrder.asDirection.map Sql.Direction.order

/-- The direction that is given, or the name of the configured one. -/
def directionOr (given : Option Text) (config : Config) : Except Fault Text :=
  match given with
  | some direction => .ok direction
  | none => config.logs.sortOrder.asDirection.map Sql.Direction.name

/-- The column that is given and not empty, or the configured one. -/
def columnOr (given : Option Text) (config : Config) : Value :=
  match given with
  | some (c :: column) => .text (c :: column)
  | _ => config.logs.timeColumn

/-- The limit that is given, or the configured one. -/
def limitOr (given : Option Int) (entry : Value) : Value := (given.map .int).getD entry

/-- The setup of the log. A level on the command line goes before the configured one. -/
def logSetup (refusal? : Text → Option Fault) (level : Option Text)
    (config : LoggingConfig) : Except Fault Log.Setup := do
  let level ← match level with
    | some (c :: level) => .ok (c :: level)
    | _ => config.level.asText "upper"
  Log.Setup.ofSettings refusal? level config.structured config.logFile

/-! ## The commands -/

/-- Line ends of the input stream are single line feeds. -/
def lineFeeds : Text → Text
  | '\r' :: '\n' :: s => '\n' :: lineFeeds s
  | '\r' :: s => '\n' :: lineFeeds s
  | c :: s => c :: lineFeeds s
  | [] => []

/-- The query given, or the text on the input stream if none is given or a hyphen stands for
it. -/
def Surroundings.sql (env : Surroundings) (given : Query) : Text :=
  if given.isInput then trim (lineFeeds env.input) else given.getD []

/-- How the program is called. -/
def usage : Text := "Usage: sqlrw [OPTIONS] COMMAND [ARGS]...".toList

/-- Reports a usage fault, or prints the help that was asked for. -/
def refuse : UsageFault → Action Nat
  | .nothing => return 2
  | .nullInPath => throw .nullInPath
  | .help => do
    Action.print usage
    return 0
  | fault => do
    Action.warn ("Error: ".toList ++ fault.message)
    return 2

/-- Prints a query, and a warning for each of its problems if a check is wanted. -/
def printQuery (env : Surroundings) (check : Bool) (sql : Text) : Action Nat := do
  Action.print sql
  if check then
    if Sql.isParsed sql then Action.emit (.parse sql)
    (Sql.problems env.verdict sql).forM fun problem =>
      Action.warn ("warning: ".toList ++ problem)
  return 0

/-- Applies a processor to a query and prints the outcome. -/
def printProcessed (env : Surroundings) (check : Bool) (p : Processor) (sql : Text) :
    Action Nat := do
  (p.records sql).forM fun r => Action.emit (.log r)
  printQuery env check (p.apply sql)

/-- Reads a filter: the column up to the first equals sign, and the value behind it. -/
def readFilter (given : Text) : Except UsageFault Sql.Filter :=
  let column := trim (given.takeWhile (· != '='))
  if column.isEmpty ∨ !given.contains '=' then
    .error (.invalidValue "--filter".toList
      ("expected column=value, got ".toList ++ quoted given))
  else .ok ⟨column, (given.dropWhile (· != '=')).tail⟩

/-- The shell's data source. There is one type of source. -/
def shellSource (config : SourceConfig) : Except Fault Source :=
  match config.kind with
  | .text kind =>
    if kind = "duckdb".toList then Source.ofEntries "sqlrw".toList config.entries
    else .error (.unsupportedSource kind)
  | kind => .error (.unsupportedSource kind.shown)

/-- The shell on a source, set up by the configuration. -/
def shellOf (config : Config) (source : Source) : Except Fault Shell := do
  let column := config.logs.timeColumn
  let order ←
    if config.logs.autoOrderBy.isSet then
      config.logs.sortOrder.asDirection.map fun direction => some (column, direction.order)
    else .ok none
  let filterColumns ← config.context.filterColumns.asColumns
  return {
    source := source
    limit := config.logs.defaultLimit
    order := order
    browser := ⟨column, config.context.limit, filterColumns⟩
    pageDirection := (← config.logs.sortOrder.asDirection).name
    showQuery := false
    last := none
    buffer := [] }

def runShell (env : Surroundings) (config : Config) : Action Nat := do
  let source? ← tryCatch
    (do
      let source ← shellSource config.source
      source.connect
      return some source)
    fun fault =>
      if fault.isReported then do
        Action.warn ("error: ".toList ++ fault.message)
        return none
      else throw fault
  match source? with
  | none => return 1
  | some source =>
    (← shellOf config source).session env.inputs
    return 0

/-- Does a command and returns its exit code. -/
def Command.run (env : Surroundings) (config : Config) : Command → Action Nat
  | locate clause sql => do
    match clause.position? (env.sql sql) with
    | some p => Action.print (natText p)
    | none => Action.print "not found".toList
    return 0
  | injectLimit sql limit check => do
    let sql := env.sql sql
    if sql.isEmpty then printQuery env check sql
    else
      let limit ← (limitOr limit config.logs.defaultLimit).asLimit
      printProcessed env check (.limit limit) sql
  | injectOrder sql column order check => do
    let order ← orderOr order config
    let sql := env.sql sql
    let p ← Processor.ofOrder (columnOr column config) order sql
    printProcessed env check p sql
  | page sql timeColumn timeExpression direction limit filters check => do
    match filters.mapM readFilter with
    | .error fault => refuse fault
    | .ok filters =>
      let direction ← directionOr direction config
      let sql := env.sql sql
      let request : Sql.PageRequest :=
        ⟨columnOr timeColumn config, timeExpression, direction,
          limitOr limit config.context.limit, filters⟩
      match request.page? sql with
      | .error (.unknownDirection given) =>
        let fault := Fault.unknownDirection given
        refuse (.invalidValue "--direction".toList fault.message)
      | .error fault => throw fault
      | .ok none => printQuery env check sql
      | .ok (some pg) => printProcessed env check (.page pg) sql
  | shell => runShell env config

/-! ## Whole runs -/

inductive Ending
  | exit (code : Nat)
  /-- A fault that nothing reported. -/
  | fault (fault : Fault)
  deriving Repr

structure Outcome where
  ending : Ending
  /-- The setup of the log, if the run came that far. -/
  setup : Option Log.Setup
  trace : List Event

/-- Ends a run with an action. -/
def finish (setup : Option Log.Setup) (w : World) (action : Action Nat) : Outcome :=
  match action.perform w with
  | (.ok code, w) => ⟨.exit code, setup, w.trace⟩
  | (.error fault, w) => ⟨.fault fault, setup, w.trace⟩

/-- The configuration that a run uses: the one in its file, or the default. -/
def Surroundings.config (env : Surroundings) (path : Option Text) : Except Fault Config :=
  match path with
  | none => .ok .default
  | some path => loadConfig env.entry path

/-- Runs a command line in a world. The command has to exist before the configuration is read,
and the command's own arguments are read after the log has been set up. -/
def run (env : Surroundings) (w : World) : Outcome :=
  match Global.read env.entry env.args with
  | .error fault => finish none w (refuse fault)
  | .ok options =>
    match options.rest with
    | [] => finish none w (refuse .missingCommand)
    | name :: args =>
      match Command.reader env.entry name args with
      | .error fault => finish none w (refuse fault)
      | .ok reader =>
        match env.config options.config with
        | .error fault => finish none w (throw fault)
        | .ok config =>
          match logSetup env.refusal? options.logLevel config.logging with
          | .error fault => finish none w (throw fault)
          | .ok setup =>
            match reader args with
            | .error fault => finish (some setup) w (refuse fault)
            | .ok command => finish (some setup) w (command.run env config)

/-- What is seen of a run from outside. -/
inductive Output
  | out (text : Text)
  | err (text : Text)
  | prompt (text : Text)
  | connect (path readOnly : Value)
  | execute (statement : Value)
  | close
  deriving Repr

def outputOf? (setup : Option Log.Setup) (times : Log.Times) : Event → Option Output
  | .connect path readOnly _ => some (.connect path readOnly)
  | .execute _ statement _ => some (.execute statement)
  | .close _ => some .close
  | .print text => some (.out (withoutSequences text))
  | .warn text => some (.err (withoutSequences text))
  | .prompt text => some (.prompt text)
  | .parse _ => none
  | .log r =>
    match setup with
    | some setup => if setup.passes r then some (.err (setup.line times r)) else none
    | none => none

namespace Outcome

def outputs (times : Log.Times) (o : Outcome) : List Output :=
  o.trace.filterMap (outputOf? o.setup times)

/-- The queries that the parser was asked about. -/
def parsed (o : Outcome) : List Text :=
  o.trace.filterMap fun
    | .parse sql => some sql
    | _ => none

/-- The path of the log file and the lines written to it, if the log has one. -/
def logFile (times : Log.Times) (o : Outcome) : Option (Text × List Text) := do
  let setup ← o.setup
  let path ← setup.file
  let lines := o.trace.filterMap fun
    | .log r => if setup.passes r then some (setup.line times r) else none
    | _ => none
  return (path, lines)

end Outcome

end QuerySplice.CommandLine
