import QuerySplice.CommandLine.Run
import QuerySplice.Value.JsonReader

/-!
# The program

The outer layer of the command line: it looks the configuration file up, reads the input stream,
and prints what the run did. A configuration file is read as JSON. No database engine and no
parser are linked in, so the shell reports that it cannot connect, and a check finds no problems.
Log lines show the start of the epoch, as the run itself knows no time.
-/

namespace QuerySplice.Program

open CommandLine

def epoch : Time.Clock := ⟨1970, 1, 1, 0, 0, 0, 0⟩

def times : Log.Times := ⟨epoch, epoch⟩

/-- A world whose database refuses the connection. -/
def world : World :=
  .initial ⟨[], [some "no database engine is available".toList], 0⟩ (.ofInt 0)

/-- What the path of the configuration leads to. -/
def configEntry (args : List Text) : IO Entry := do
  match Global.read (fun _ => .file .null) args with
  | .ok ⟨some path, _, _⟩ =>
    match ← (IO.FS.readFile (String.ofList path)).toBaseIO with
    | .error (.inappropriateType ..) => return .directory
    | .error _ => return .missing
    | .ok content =>
      match Value.ofJson? content.toList with
      | some document => return .file document
      | none => throw (IO.userError "the configuration is not JSON")
  | _ => return .missing

def display (output : Output) : IO Unit :=
  match output with
  | .out text => IO.println (String.ofList text)
  | .err text => IO.eprintln (String.ofList text)
  | .prompt text => IO.print (String.ofList text)
  | .connect _ _ | .execute _ | .close => pure ()

/-- Puts lines at the end of a file. -/
def append (path : Text) (lines : List Text) : IO Unit := do
  let file ← IO.FS.Handle.mk (String.ofList path) .append
  lines.forM fun line => file.putStrLn (String.ofList line)

end QuerySplice.Program

open QuerySplice QuerySplice.Program QuerySplice.CommandLine in
def main (args : List String) : IO UInt32 := do
  let args := args.map String.toList
  let entry ← configEntry args
  let input ← if readsInput args then (← IO.getStdin).readToEnd else pure ""
  let outcome := CommandLine.run
    ⟨args, fun _ => entry, fun _ => none, input.toList, .accepted, []⟩ world
  (outcome.outputs times).forM Program.display
  if let some (path, lines) := outcome.logFile times then append path lines
  match outcome.ending with
  | .exit code => return code.toUInt32
  | .fault fault => do
    IO.eprintln (String.ofList fault.message)
    return 1
