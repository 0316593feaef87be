import QuerySplice.Config
import QuerySplice.Log.Setup

/-!
# Paths from the working directory

A path is taken apart at its slashes and walked step by step. Empty steps and single points lead
nowhere, and two points lead up, from the root to itself. What there is around the working directory
is given by entries at places; of the directories above it nothing is known but that they are there.

A configuration is read from where its path leads to. The path of a log is first made short by its
text alone, so that two points take the step before them away, and the log is written to where the
short path leads to. To read it back the path is walked as it is written, which may lead nowhere:
the file is in the way of a slash behind its name, and a directory that is only named to be left
again has to be there.
-/

namespace QuerySplice.CommandLine

/-- What a path leads to. -/
inductive Entry
  | missing
  /-- The path goes on behind a file. -/
  | beyondFile
  | nameTooLong
  | directory
  | file (document : Value)
  /-- A file that is always empty, whatever is written to it. -/
  | sink

/-- Why nothing can be read from what a path leads to. -/
def Entry.fault? : Entry → Option PathFault
  | missing => some .notFound
  | beyondFile => some .notDirectory
  | nameTooLong => some .nameTooLong
  | directory => some .isDirectory
  | file _ | sink => none

/-- The parts of a text between the slashes. -/
def splitPath : Text → List Text
  | [] => [[]]
  | c :: s =>
    if c = '/' then [] :: splitPath s
    else
      match splitPath s with
      | part :: parts => (c :: part) :: parts
      | [] => [[c]]

/-- Whether a part of a path leads somewhere. -/
def isStep (part : Text) : Bool := !part.isEmpty && part != ['.']

/-- Whether a part of a path leads up. -/
def isUp (part : Text) : Bool := part == ['.', '.']

def isAbsolute (path : Text) : Bool := path.head? == some '/'

/-- The bytes that a text takes. -/
def byteCount (s : Text) : Nat := s.foldr (fun c count => c.utf8Size + count) 0

/-- The most bytes of a name. -/
def mostNameBytes : Nat := 255

/-- The most bytes of a path. -/
def mostPathBytes : Nat := 4095

/-- A path written from its steps. One that begins with exactly two slashes keeps both. -/
def pathText (path : Text) (steps : List Text) : Text :=
  let slashes := (path.takeWhile (· == '/')).length
  List.replicate (if slashes = 2 then 2 else min slashes 1) '/' ++ List.intercalate ['/'] steps

/-- A path without the parts that lead nowhere. -/
def plainPath (path : Text) : Text :=
  match pathText path ((splitPath path).filter isStep) with
  | [] => ['.']
  | path => path

/-- A place by the steps to it, the last of them first, from the root or from the working directory.
Steps up come first of all and only from the working directory. -/
structure Place where
  fromRoot : Bool
  steps : List Text
  deriving DecidableEq

namespace Place

/-- Where a path starts. -/
def start (path : Text) : Place := ⟨isAbsolute path, []⟩

/-- The place that a part of a path leads to. A step up takes the step before it away. -/
def step (place : Place) (part : Text) : Place :=
  if !isStep part then place
  else if isUp part then
    match place.steps with
    | [] => if place.fromRoot then place else { place with steps := [part] }
    | last :: before =>
      if isUp last then { place with steps := part :: last :: before }
      else { place with steps := before }
  else { place with steps := part :: place.steps }

/-- The place that a path names by its text alone. -/
def ofPath (path : Text) : Place := (splitPath path).foldl step (start path)

/-- Whether paths start at the place, or it is above the start. -/
def isStart (place : Place) : Bool := place.steps.all isUp

end Place

/-- The directory in which the program runs, by the entries known around it. -/
structure WorkingDirectory where
  entries : List (Place × Entry)

namespace WorkingDirectory

/-- The entry at a place. -/
def find (d : WorkingDirectory) (place : Place) : Entry :=
  if place.isStart then .directory
  else ((d.entries.find? fun e => e.1 == place).map (·.2)).getD .missing

/-- What the parts of a path lead to from a directory. Nothing is found behind a file. -/
def walk (d : WorkingDirectory) : Place → List Text → Entry
  | _, [] => .directory
  | place, part :: parts =>
    if !isStep part then d.walk place parts
    else if mostNameBytes < byteCount part then .nameTooLong
    else
      match d.find (place.step part) with
      | .directory => d.walk (place.step part) parts
      | .file document => if parts.isEmpty then .file document else .beyondFile
      | .sink => if parts.isEmpty then .sink else .beyondFile
      | e => e

/-- What a path leads to. -/
def entry (d : WorkingDirectory) (path : Text) : Entry :=
  if path.isEmpty then .missing
  else if mostPathBytes < byteCount path then .nameTooLong
  else d.walk (.start path) (splitPath path)

/-- Why lines cannot be written to a path, if they cannot. A file that is missing is made if its
directory is there. -/
def refusal? (d : WorkingDirectory) (path : Text) : Option Fault :=
  let steps := (Place.ofPath path).steps.reverse
  let short := pathText path steps
  let refused (why : PathFault) : Option Fault := some (.pathRefused why short)
  if mostPathBytes < byteCount short then refused .nameTooLong
  else
    match d.walk (.start path) steps with
    | .missing =>
      match d.walk (.start path) steps.dropLast with
      | .directory => none
      | _ => refused .notFound
    | e => e.fault?.bind refused

/-- The directory once lines have been written to a path. -/
def written (d : WorkingDirectory) (path : Text) : WorkingDirectory :=
  match d.find (.ofPath path) with
  | .missing => ⟨(.ofPath path, .file .null) :: d.entries⟩
  | _ => d

/-- The lines that are read back from a path that they have been written to. A sink has lost
them. -/
def readBack (d : WorkingDirectory) (path : Text) (lines : List Text) :
    Except Fault (List Text) :=
  match (d.written path).entry path with
  | .sink => .ok []
  | e =>
    match e.fault? with
    | some why => .error (.pathRefused why path)
    | none => .ok lines

end WorkingDirectory

/-- The configuration in the file that a path leads to. -/
def loadConfig (entry : Text → Entry) (path : Text) : Except Fault Config :=
  let plain := plainPath path
  if path.contains '\x00' then .error (.configMissing path)
  else
    match entry plain with
    | .missing | .beyondFile => .error (.configMissing path)
    | .nameTooLong => .error (.pathRefused .nameTooLong plain)
    | .directory => .error (.pathRefused .isDirectory plain)
    | .file document => Config.ofDocument document
    | .sink => .ok .default

end QuerySplice.CommandLine
