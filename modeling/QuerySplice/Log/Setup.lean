import QuerySplice.Fault
import QuerySplice.Text.Case
import QuerySplice.Log.Record

/-!
# Which records are written, and how

A setup has one threshold for all records, and a fixed one for the loggers of the SQL parser,
whose lesser messages are of no interest. Records of level zero or less never pass. Every record
that passes goes to the error stream, and to a file if one is named.
-/

namespace QuerySplice.Log

open Text

/-- The levels by name. -/
def levels : List (String × Int) :=
  [("CRITICAL", 50), ("FATAL", 50), ("ERROR", 40), ("WARNING", 30), ("WARN", 30), ("INFO", 20),
   ("DEBUG", 10), ("NOTSET", 0)]

/-- The names beside those of the levels that have a meaning: the default line format, and the
table of the styles in which formats are written. -/
def otherMeanings : List (String × Fault) :=
  [("BASIC_FORMAT", .unknownLevel "%(levelname)s:%(name)s:%(message)s".toList),
   ("_STYLES", .notALevel
     ("\x7b'%': (<class 'logging.PercentStyle'>, '%(levelname)s:%(name)s:%(message)s'), ".toList ++
      "'\x7b': (<class 'logging.StrFormatStyle'>, ".toList ++
      "'\x7blevelname\x7d:\x7bname\x7d:\x7bmessage\x7d'), ".toList ++
      "'$': (<class 'logging.StringTemplateStyle'>, ".toList ++
      "'$\x7blevelname\x7d:$\x7bname\x7d:$\x7bmessage\x7d')\x7d".toList))]

/-- The level of this name, in any letter case. A name without a meaning stands for `INFO`, and one
with a meaning of another kind for no level. -/
def levelOfName (name : Text) : Except Fault Int :=
  let name := inCapitals name
  match levels.find? fun level => level.1.toList == name with
  | some level => .ok level.2
  | none =>
    match otherMeanings.find? fun other => other.1.toList == name with
    | some other => .error other.2
    | none => .ok info

structure Setup where
  level : Int
  structured : Bool
  /-- The path of the log file. -/
  file : Option Text

/-- The path of a log file. A path that is not set is no file. -/
def filePath? (file : Value) : Except Fault (Option Text) :=
  if file.isSet then
    match file with
    | .text path => if path.contains '\x00' then .error .nullInPath else .ok (some path)
    | v => .error (.notAPath v.typeName)
  else .ok none

/-- The setup with the level of this name. The log file must not be refused. -/
def Setup.ofSettings (refusal? : Text → Option Fault) (level : Text) (structured file : Value) :
    Except Fault Setup := do
  let level ← levelOfName level
  let file ← filePath? file
  match file.bind refusal? with
  | some fault => .error fault
  | none => return ⟨level, structured.isSet, file⟩

/-- The threshold of the parser's loggers. -/
def parserLevel : Int := warning

/-- The name of a logger. The root of all loggers has no name of its own and is called so. -/
def loggerName (name : Text) : Text := if name.isEmpty then "root".toList else name

/-- The name of the parser's logger. -/
def parserLogger : Text := "sqlglot".toList

/-- Whether a logger is `parent` or one of the loggers below it. A logger is below another if its
name goes on with a point, where each pair of points counts as none. -/
def isUnder (parent logger : Text) : Bool :=
  let rest := logger.drop parent.length
  parent.isPrefixOf logger &&
    (rest.isEmpty || (rest.takeWhile (· == '.')).length % 2 == 1)

def threshold (setup : Setup) (logger : Text) : Int :=
  if isUnder parserLogger logger then parserLevel else setup.level

/-- Whether a record is written: its level has to be above zero, and to reach both the threshold of
its logger and the one of the setup. -/
def Setup.passes (setup : Setup) (r : Record) : Bool :=
  decide (0 < r.level ∧ threshold setup r.logger ≤ r.level ∧ setup.level ≤ r.level)

/-- The thresholds of the places that records go to. -/
def Setup.outputLevels (setup : Setup) : List Int :=
  match setup.file with
  | some _ => [setup.level, setup.level]
  | none => [setup.level]

def Setup.line (setup : Setup) (times : Times) (r : Record) : Text :=
  r.line setup.structured times .unknown

end QuerySplice.Log
