import QuerySplice.Session.Source
import QuerySplice.Sql.Inject
import QuerySplice.Sql.Page

/-!
# Executing prepared queries

An executor holds processors. Before a query runs, the processors prepare it from left to right,
and after it has run they transform the result from right to left. What became of the last query
is kept: the text as given, the text to run, and what the processors noted. Preparing by itself
touches neither the database nor the world beyond its log. A fault in running a query undoes nothing
of what was kept.
-/

namespace QuerySplice

open Text

inductive Processor
  /-- Injects a limit. -/
  | limit (limit : Sql.Limit)
  /-- Injects an order. -/
  | order (column direction : Text)
  /-- Makes a context page of the query. -/
  | page (page : Sql.Page)
  deriving Repr

/-- A query on its way to the database. -/
structure Preparation where
  /-- The query as it was given. -/
  given : Text
  /-- The query to run. -/
  query : Text
  /-- The last limit that was injected. -/
  injectedLimit : Option Sql.Limit
  /-- The last column by which an order was injected. -/
  injectedOrder : Option Text
  /-- The direction of the last page. -/
  direction : Option Sql.Direction
  deriving Repr, DecidableEq

namespace Preparation

def start (sql : Text) : Preparation := ⟨sql, sql, none, none, none⟩

/-- Whether the query to run differs from the given one. -/
def changed (r : Preparation) : Bool := r.query != r.given

end Preparation

/-! ## What injections and pages put into the log -/

namespace Sql

def Skip.message : Skip → Text
  | .hasLimit => "Skipping LIMIT injection: query already has LIMIT".toList
  | .notSelect => "Skipping LIMIT injection: not a SELECT statement".toList
  | .hasOrder => "Skipping ORDER BY injection: query already has ORDER BY".toList
  | .plainAggregate => "Skipping ORDER BY injection: ungrouped aggregate query".toList

def injectLogger : Text := "clause_rewriter.rewriter.injectors".toList

def pageLogger : Text := "clause_rewriter.rewriter.context".toList

def skipRecords (skip : Option Skip) : List Log.Record :=
  skip.toList.map fun skip => ⟨Log.debug, injectLogger, skip.message, []⟩

/-- The log of making a page of a query. -/
def Page.records (page : Page) (sql : Text) : List Log.Record :=
  if page.applies sql then
    [⟨Log.debug, pageLogger,
      "Built ".toList ++ page.direction.name ++ " context query with ".toList ++
        natText page.filters.length ++ " filter(s): ".toList ++ page.query sql, []⟩]
  else []

end Sql

namespace Processor

/-- What the processor makes of a query. -/
def apply : Processor → Text → Text
  | limit n, sql => Sql.injectLimit n sql
  | order column direction, sql => Sql.injectOrder column direction sql
  | page p, sql => p.query sql

/-- The log of applying the processor to a query. -/
def records : Processor → Text → List Log.Record
  | limit n, sql => Sql.skipRecords (Sql.limitSkip? n sql)
  | order column _, sql => Sql.skipRecords (Sql.orderSkip? column sql)
  | page p, sql => p.records sql

/-- Applies the processor to the query at hand and notes what was done: an injection only if it
changed the text, and the direction of a page in any case. -/
def before (p : Processor) (r : Preparation) : Preparation :=
  let query := p.apply r.query
  let r' := { r with query }
  match p with
  | limit n => if query ≠ r.query then { r' with injectedLimit := some n } else r'
  | order column _ =>
    if query ≠ r.query then { r' with injectedOrder := some column } else r'
  | page pg => { r' with direction := some pg.direction }

/-- The processor that injects an order on a column whose name is a setting of any type. A name that
is not set names no column, and one that is no text is a fault once it has to be written. -/
def ofOrder (column : Value) (direction : Sql.Order) (sql : Text) : Except Fault Processor :=
  let name := if column.isSet then column.shown else []
  if Sql.takesOrder name sql then do return .order (← column.asName) direction.text
  else .ok (.order name direction.text)

/-- Transforms a result. Backward pages come with the newest row first and are turned round. -/
def after : Processor → Table → Table
  | page p, t => if p.direction = .backward then t.reversed else t
  | _, t => t

end Processor

structure Executor where
  processors : List Processor
  /-- The last query. -/
  last : Preparation
  deriving Repr

namespace Executor

def ofProcessors (processors : List Processor) : Executor := ⟨processors, .start []⟩

def logger : Text := "clause_rewriter.processor.query_executor".toList

/-- Prepares a query, which becomes the last one. -/
def prepare (x : Executor) (sql : Text) : Executor :=
  { x with last := x.processors.foldl (fun r p => p.before r) (.start sql) }

/-- The log of preparing a query with these processors. -/
def records : List Processor → Text → List Log.Record
  | [], _ => []
  | p :: processors, sql => p.records sql ++ records processors (p.apply sql)

/-- Puts the log of preparing a query into the world. -/
def logPreparation (x : Executor) (sql : Text) : Action Unit :=
  (records x.processors sql).forM fun r => Action.emit (.log r)

/-- Runs the last query. -/
def run (x : Executor) (source : Source) : Action Table := do
  let id := (← get).queries + 1
  modify fun w => { w with queries := id }
  let log (level : Int) (message : Text) :=
    Action.log logger level message [("query_id".toList, .int id)]
  x.logPreparation x.last.given
  if x.last.changed then log Log.info ("Rewrote query: ".toList ++ x.last.query)
  let t ← source.query x.last.query
  log Log.debug ("Query returned ".toList ++ natText t.rows.length ++ " row(s)".toList)
  return x.processors.foldr (fun p t => p.after t) t

/-- What is done with an executor in a world. What was done to both before a fault is kept. -/
abbrev Use (α : Type) := ExceptT Fault (StateM (Executor × World)) α

namespace Use

variable {α : Type}

/-- Does it with an executor in a world. -/
def perform (use : Use α) (st : Executor × World) : Except Fault α × Executor × World :=
  Id.run (StateT.run (ExceptT.run use) st)

/-- An action that leaves the executor alone. -/
def ofAction (action : Action α) : Use α := fun st =>
  match action.perform st.2 with
  | (result, w) => (result, st.1, w)

/-- Does it with an executor that is not used again. -/
def once (use : Use α) (x : Executor) : Action α := fun w =>
  match use.perform (x, w) with
  | (result, _, w) => (result, w)

end Use

/-- Prepares a query and returns the text to run. -/
def rewrite (sql : Text) : Use Text := do
  modify fun st => (st.1.prepare sql, st.2)
  let x := (← get).1
  Use.ofAction (x.logPreparation sql)
  return x.last.query

/-- Prepares a query and runs it. -/
def execute (source : Source) (sql : Text) : Use Table := do
  modify fun st => (st.1.prepare sql, st.2)
  Use.ofAction ((← get).1.run source)

theorem once_execute (source : Source) (sql : Text) (x : Executor) :
    (execute source sql).once x = (x.prepare sql).run source := rfl

end Executor

end QuerySplice
