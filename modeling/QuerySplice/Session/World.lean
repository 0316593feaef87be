import QuerySplice.Fault
import QuerySplice.Log.Record
import QuerySplice.Table

/-!
# What a session sees and does

A database answers from a script: it accepts or refuses each connection in turn and replies to
each statement in turn, and past the end of the script it accepts and returns an empty table.
A statement that succeeds may still have a result that cannot be fetched.
Everything a session does in view of others is an event, and the trace holds the events in order.
Connections are numbered in the order in which they are opened.

An action may end in a fault, and what it did before the fault is kept.
-/

namespace QuerySplice

/-- What is fetched of a result: the table, or the fault of a value that no table can hold. -/
abbrev Fetch := Except Fault Table

inductive Reply
  | result (fetch : Fetch)
  | failure (message : Text)
  deriving Repr

structure Database where
  replies : List Reply
  /-- For each connection, the reason for which it is refused, if it is. -/
  refusals : List (Option Text)
  /-- How many connections have been opened. -/
  opened : Nat
  deriving Repr

namespace Database

/-- Answers a request for a connection with its number, or with the reason for refusing it. -/
def connect (db : Database) : Except Text Nat × Database :=
  match db.refusals with
  | some reason :: rest => (.error reason, { db with refusals := rest })
  | none :: rest => (.ok db.opened, { db with refusals := rest, opened := db.opened + 1 })
  | [] => (.ok db.opened, { db with opened := db.opened + 1 })

/-- Answers a statement with its result or with the text of a failure. -/
def execute (db : Database) : Except Text Fetch × Database :=
  match db.replies with
  | .result fetch :: rest => (.ok fetch, { db with replies := rest })
  | .failure message :: rest => (.error message, { db with replies := rest })
  | [] => (.ok (.ok .empty), db)

end Database

inductive Event
  /-- A connection was asked for; its number, if it was opened. -/
  | connect (path readOnly : Value) (link : Option Nat)
  /-- A statement was sent on a connection; whether it succeeded. -/
  | execute (link : Nat) (statement : Value) (succeeded : Bool)
  | close (link : Nat)
  | log (record : Log.Record)
  /-- A text for the output stream. -/
  | print (text : Text)
  /-- A text for the error stream. -/
  | warn (text : Text)
  /-- A prompt for the next line of input. -/
  | prompt (text : Text)
  /-- The parser was asked about a query. -/
  | parse (sql : Text)
  deriving Repr

structure World where
  database : Database
  /-- The connection held at present. -/
  link : Option Nat
  /-- Whether the connection held is known to be set up. -/
  ready : Bool
  /-- How many queries executors have run. -/
  queries : Nat
  /-- The milliseconds that a timed query takes. -/
  elapsed : Number.Binary64
  trace : List Event
  deriving Repr

/-- A world in which nothing has happened yet. -/
def World.initial (database : Database) (elapsed : Number.Binary64) : World :=
  ⟨database, none, false, 0, elapsed, []⟩

/-- An action in a world. -/
abbrev Action (α : Type) := ExceptT Fault (StateM World) α

namespace Action

/-- Does the action in a world. -/
def perform {α : Type} (action : Action α) (w : World) : Except Fault α × World :=
  StateT.run (ExceptT.run action) w

def emit (event : Event) : Action Unit :=
  modify fun w => { w with trace := w.trace ++ [event] }

def print (text : Text) : Action Unit := emit (.print text)

def warn (text : Text) : Action Unit := emit (.warn text)

def log (logger : Text) (level : Int) (message : Text) (fields : List (Text × Value)) :
    Action Unit :=
  emit (.log ⟨level, logger, message, fields⟩)

/-- Does the action, then `after` in any case, and ends as the action did. -/
def ensuring {α : Type} (action : Action α) (after : Action Unit) : Action α := fun w =>
  match action.perform w with
  | (result, w) =>
    match after.perform w with
    | (.ok (), w) => (result, w)
    | (.error fault, w) => (.error fault, w)

/-- Does the action and reports a fault that a session survives. -/
def reporting (action : Action Unit) : Action Unit :=
  tryCatch action fun fault =>
    if fault.isReported then print ("error: ".toList ++ fault.message) else throw fault

end Action

end QuerySplice
