import QuerySplice.Session.Browser
import QuerySplice.Session.Line
import QuerySplice.Table.Display

/-!
# The interactive shell

The shell reads lines until an exit command or the end of the input. An interrupt drops the lines
gathered so far.

Statements run with the automatic limit and, if it is set, the automatic order. The last statement
that succeeded is kept together with its result, so a page can be asked for around one of its
rows.

The limit and the column of the order are settings of any type. A setting that cannot be used ends
the shell when a statement needs it.
-/

namespace QuerySplice

open Text

structure Shell where
  source : Source
  /-- The limit that is injected. -/
  limit : Value
  /-- The column and the direction of the order that is injected, if one is. -/
  order : Option (Value × Sql.Order)
  browser : Browser
  /-- The direction of a page for which none is given. -/
  pageDirection : Text
  showQuery : Bool
  /-- The last statement that succeeded, with its result, which was read to be shown. -/
  last : Option (Text × Table)
  /-- The lines gathered so far. -/
  buffer : List Text
  deriving Repr

namespace Shell

/-- The processors of a statement: an order goes in before the limit. -/
def processors (sh : Shell) (statement : Text) : Action (List Processor) := do
  let order ← sh.order.toList.mapM fun o => Processor.ofOrder o.1 o.2 statement
  tryCatch
    (do return order ++ [.limit (← sh.limit.asLimit)])
    fun fault => do
      (Executor.ofProcessors order).logPreparation statement
      throw fault

def prompt (sh : Shell) : Text :=
  if sh.buffer.isEmpty then "sqlrw> ".toList else "...> ".toList

/-- Prints a result and the time it took. -/
def display (t : Table) : Action Unit := do
  let lines ← t.lines (← get).elapsed
  lines.forM Action.print

/-- Runs a statement and keeps it with its result if it succeeds. -/
def runStatement (sh : Shell) (statement : Text) : Action Shell := do
  if isBlankStatement statement then return sh
  let x := (Executor.ofProcessors (← sh.processors statement)).prepare statement
  tryCatch
    (do
      let t ← x.run sh.source
      if sh.showQuery then Action.print x.last.query
      display t
      return { sh with last := some (statement, t) })
    fun fault =>
      if fault.isReported then do
        Action.print ("error: ".toList ++ fault.message)
        return sh
      else throw fault

/-- Shows the rows around a row of the last result. -/
def showPage (sh : Shell) (index : Nat) (direction : Text) : Action Unit := do
  match sh.last with
  | none => Action.print "No previous result to show context for".toList
  | some (sql, t) =>
    match t.rows[index]? with
    | none =>
      Action.print ("Row ".toList ++ natText index ++ " is out of range (".toList ++
        natText t.rows.length ++ " rows)".toList)
    | some row =>
      let row := t.record row
      match ← Value.fieldNamed row sh.browser.timeColumn with
      | some (.time time _) =>
        Action.reporting do
          display (← sh.browser.fetch sh.source sql time direction row)
      | _ =>
        Action.print ("Row ".toList ++ natText index ++ " has no timestamp in column ".toList ++
          sh.browser.timeColumn.innerText)

/-- Does what a shortcut line says. -/
def runShortcut (sh : Shell) (line : Text) : Action Shell := do
  match Shortcut.ofLine line with
  | .toggleQuery =>
    let showQuery := !sh.showQuery
    Action.print ("Show rewritten SQL: ".toList ++
      if showQuery then "on".toList else "off".toList)
    return { sh with showQuery }
  | .setLimit digits =>
    let limit ← number digits
    Action.print ("Auto LIMIT set to ".toList ++ natText limit)
    return { sh with limit := .int limit }
  | .showPage digits direction =>
    sh.showPage (← number digits) (direction.getD sh.pageDirection)
    return sh
  | .unknown =>
    Action.print ("Unknown shortcut: ".toList ++ trim line)
    Action.print "Available shortcuts: .sql, .limit N, .context ROW [forward|backward]".toList
    return sh

/-- Takes one line of input. There is no shell after an exit command. -/
def takeLine (sh : Shell) (line : Text) : Action (Option Shell) := do
  match Reading.ofLine sh.buffer line with
  | .exit => return none
  | .shortcut => return some (← sh.runShortcut line)
  | .gathered buffer => return some { sh with buffer }
  | .statement lines =>
    return some (← { sh with buffer := [] }.runStatement (List.intercalate ['\n'] lines))

/-- Takes one input. -/
def take (sh : Shell) : Input → Action (Option Shell)
  | .line line => sh.takeLine line
  | .interrupt => do
    Action.print []
    return some { sh with buffer := [] }

/-- Reads all inputs, up to an exit command or to their end. -/
def run (sh : Shell) : List Input → Action Unit
  | [] => do
    Action.emit (.prompt sh.prompt)
    Action.print []
  | input :: inputs => do
    Action.emit (.prompt sh.prompt)
    match ← sh.take input with
    | none => return ()
    | some sh => sh.run inputs

/-- What a shell says before the first prompt. -/
def greeting : List Text :=
  ["Type SQL statements terminated by ';'. Use \\q to exit.".toList,
   "Use .sql to toggle rewritten SQL, .limit N to change the auto LIMIT.".toList,
   "Use .context ROW [forward|backward] to page around a row of the last result.".toList]

/-- Greets, reads the inputs on a connected source and disconnects at the end, come what may. -/
def session (sh : Shell) (inputs : List Input) : Action Unit := do
  greeting.forM Action.print
  Action.ensuring (do sh.source.ensureConnected; sh.run inputs) sh.source.disconnect

end Shell

end QuerySplice
