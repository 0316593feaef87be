import QuerySplice.Config
import QuerySplice.Session.World

/-!
# Data sources

A data source connects to its database when it is first needed, and runs the statements that set
the connection up right after opening it. A refusal or a failing statement is a fault that names
the source. The connection held is closed when the source is disconnected.
-/

namespace QuerySplice

open Text

structure Source where
  name : Text
  path : Value
  readOnly : Value
  /-- The statements that set a new connection up. -/
  setup : List Value
  deriving Repr

namespace Source

def logger : Text := "clause_rewriter.datasources.duckdb".toList

/-- The source with these entries. Without a path the database is in memory. -/
def ofEntries (name : Text) (entries : List (Text × Value)) : Except Fault Source := do
  return {
    name := name
    path := Config.entry entries "path" (.text ":memory:".toList)
    readOnly := Config.entry entries "read_only" (.bool false)
    setup := ← (Config.entry entries "init_sql" (.list [])).items }

/-- The source as it is shown to a programmer. -/
def label (s : Source) : Text := "DuckDBDataSource(name=".toList ++ s.name ++ [')']

def log (level : Int) (message : Text) : Action Unit := Action.log logger level message []

/-- Asks the database for a connection. -/
def openLink (s : Source) : Action Nat := do
  let w ← get
  let (answer, database) := w.database.connect
  set { w with database }
  Action.emit (.connect s.path s.readOnly answer.toOption)
  match answer with
  | .ok link => return link
  | .error message => throw (.database s.name message)

/-- Sends a statement on a connection and returns its result, which is still to be fetched. -/
def send (s : Source) (link : Nat) (statement : Value) : Action Fetch := do
  let w ← get
  let (answer, database) := w.database.execute
  set { w with database }
  Action.emit (.execute link statement answer.isOk)
  match answer with
  | .ok fetch => return fetch
  | .error message => throw (.database s.name message)

/-- Opens a new connection and sets it up. It is held from the moment it is open, but the source
counts as connected only when all statements of the setup have succeeded. Their results are not
fetched. -/
def connect (s : Source) : Action Unit := do
  log Log.info ("Connecting to DuckDB at '".toList ++ s.path.shown ++ "'".toList)
  let link ← s.openLink
  modify fun w => { w with link := some link }
  s.setup.forM fun statement => do
    let _ ← s.send link statement
  modify fun w => { w with ready := true }
  log Log.info ("Successfully connected to DuckDB: ".toList ++ s.name)

/-- Closes the connection held, if there is one. -/
def disconnect (s : Source) : Action Unit := do
  if let some link := (← get).link then
    Action.emit (.close link)
    log Log.info ("Disconnected from DuckDB: ".toList ++ s.name)
    modify fun w => { w with link := none }
  modify fun w => { w with ready := false }

def ensureConnected (s : Source) : Action Unit := do
  if !(← get).ready then s.connect

/-- Sends a query on the connection held, connecting first if need be, and fetches its result. -/
def query (s : Source) (sql : Text) : Action Table := do
  s.ensureConnected
  log Log.debug ("Executing query on ".toList ++ s.name ++ ": ".toList ++ sql)
  match (← get).link with
  | some link => (← s.send link (.text sql))
  | none => return .empty

end Source

end QuerySplice
