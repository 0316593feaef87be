import QuerySplice.Number.Word
import QuerySplice.Text.Decimal
import QuerySplice.Text.Quoted

/-!
# Faults

A fault is the cause for which an operation gives no result. The wording of all of them is in one
function, and `Fault.isReported` tells the faults that a session reports and survives from those
that end it.
-/

namespace QuerySplice

open Text

/-- The sections of a configuration whose entries are named in advance. -/
inductive Section
  | logs
  | context
  | logging
  deriving DecidableEq, Repr

/-- What a section is called in messages. -/
def Section.title : Section → Text
  | .logs => "LogsConfig".toList
  | .context => "ContextConfig".toList
  | .logging => "LoggingConfig".toList

/-- Why a path cannot be opened. -/
inductive PathFault
  | notFound
  /-- The path goes on behind something that is no directory. -/
  | notDirectory
  | isDirectory
  | nameTooLong
  deriving DecidableEq, Repr

/-- The number and the wording of the system for the fault. -/
def PathFault.text : PathFault → Text
  | .notFound => "[Errno 2] No such file or directory".toList
  | .notDirectory => "[Errno 20] Not a directory".toList
  | .isDirectory => "[Errno 21] Is a directory".toList
  | .nameTooLong => "[Errno 36] File name too long".toList

inductive Fault
  /-- The text names no paging direction. -/
  | unknownDirection (given : Text)
  /-- The text is not exactly an order. -/
  | notAnOrder (given : Text)
  /-- The text is not exactly a paging direction. -/
  | notADirection (given : Text)
  /-- The word is no clause of a query. -/
  | unknownClause
  /-- The database refused a connection or a statement. -/
  | database (source message : Text)
  | unsupportedSource (kind : Text)
  /-- Universal time falls outside the calendar. -/
  | dateOutOfRange
  | yearOutOfRange (year : Int)
  /-- The month has no such day. -/
  | dayOutOfRange
  /-- A part of a clock time is not between its least and its greatest value. -/
  | partOutOfRange (part : Text) (least greatest : Nat)
  /-- The offset from universal time is a whole day or more. -/
  | offsetOutOfRange (seconds : Int)
  /-- The text looks like a number and has no value as one. -/
  | unreadableNumber (given : Text)
  /-- The number has so many digits. -/
  | numberTooLong (digits : Nat)
  /-- The number is beyond those of the floating format. -/
  | beyondFloats
  /-- The number does not fit a word of the machine. -/
  | beyondWord (word : Number.Word)
  /-- A part of a clock time is below all numbers of its word. -/
  | partTooSmall
  /-- A part of a clock time is above all numbers of its word. -/
  | partTooGreat
  /-- The offset from universal time is more days than a span of time can have. -/
  | tooManyDays (days : Int)
  /-- A path holds a null character. -/
  | nullInPath
  | pathRefused (why : PathFault) (path : Text)
  | configMissing (path : Text)
  /-- The whole document is of this type and not a record. -/
  | documentNotRecord (type : Text)
  | unknownEntry (part : Section) (name : Text)
  /-- The entry has the name of the section itself. -/
  | reservedEntry (part : Section)
  | sectionNotRecord (part : Section) (type : Text)
  | notIterable (type : Text)
  /-- An item of a list of pairs is of a type that has no items itself. -/
  | pairNotSequence (index : Nat)
  | pairLength (index length : Nat)
  | unhashable (type : Text)
  /-- A value of this type has no such operation. -/
  | noOperation (type operation : Text)
  /-- A value of this type cannot be compared with a number. -/
  | notOrdered (type : Text)
  /-- A value of this type is no path. -/
  | notAPath (type : Text)
  /-- The name stands for this text, which is not the name of a level. -/
  | unknownLevel (meaning : Text)
  /-- The name stands for something that can be no level. -/
  | notALevel (meaning : Text)
  | missingArguments
  | unusedArguments
  | notANumber (type : Text)
  | incompleteFormat
  | unknownFormat (code : Char) (index : Nat)
  deriving DecidableEq, Repr

namespace Fault

def message : Fault → Text
  | unknownDirection given =>
    "Unknown logs query direction: ".toList ++ quoted given ++
      " (expected 'forward' or 'backward')".toList
  | notAnOrder given => quoted given ++ " is not a valid OrderDirection".toList
  | notADirection given => quoted given ++ " is not a valid LogsQueryDirection".toList
  | unknownClause => "tuple.index(x): x not in tuple".toList
  | database source message => source ++ ": ".toList ++ message
  | unsupportedSource kind => "Unsupported data source type: ".toList ++ kind
  | dateOutOfRange => "date value out of range".toList
  | yearOutOfRange year => "year ".toList ++ intText year ++ " is out of range".toList
  | dayOutOfRange => "day is out of range for month".toList
  | partOutOfRange part least greatest =>
    part ++ " must be in ".toList ++ natText least ++ "..".toList ++ natText greatest
  | offsetOutOfRange seconds =>
    "offset must be a timedelta strictly between ".toList ++
      "-timedelta(hours=24) and timedelta(hours=24), not datetime.timedelta(days=".toList ++
      intText (seconds / 86400) ++
      (if seconds % 86400 = 0 then [] else ", seconds=".toList ++ intText (seconds % 86400)) ++
      ").".toList
  | unreadableNumber given =>
    "invalid literal for int() with base 10: ".toList ++ (quoted given).take 200
  | numberTooLong digits =>
    "Exceeds the limit (".toList ++ natText mostDigits ++
      " digits) for integer string conversion: value has ".toList ++ natText digits ++
      " digits; use sys.set_int_max_str_digits() to increase the limit".toList
  | beyondFloats => "int too large to convert to float".toList
  | beyondWord word => "Python int too large to convert to ".toList ++ word.name
  | partTooSmall => "signed integer is less than minimum".toList
  | partTooGreat => "signed integer is greater than maximum".toList
  | tooManyDays days =>
    "days=".toList ++ intText days ++ "; must have magnitude <= 999999999".toList
  | nullInPath => "embedded null byte".toList
  | pathRefused why path => why.text ++ ": ".toList ++ quoted path
  | configMissing path => "Config file not found: ".toList ++ path
  | documentNotRecord type => "'".toList ++ type ++ "' object has no attribute 'get'".toList
  | unknownEntry part name =>
    part.title ++ ".__init__() got an unexpected keyword argument '".toList ++ name ++ "'".toList
  | reservedEntry part => part.title ++ ".__init__() got multiple values for argument 'self'".toList
  | sectionNotRecord part type =>
    "clause_rewriter.config.config.".toList ++ part.title ++
      "() argument after ** must be a mapping, not ".toList ++ type
  | notIterable type => "'".toList ++ type ++ "' object is not iterable".toList
  | pairNotSequence index =>
    "cannot convert dictionary update sequence element #".toList ++ natText index ++
      " to a sequence".toList
  | pairLength index length =>
    "dictionary update sequence element #".toList ++ natText index ++ " has length ".toList ++
      natText length ++ "; 2 is required".toList
  | unhashable type => "unhashable type: '".toList ++ type ++ "'".toList
  | noOperation type operation =>
    "'".toList ++ type ++ "' object has no attribute '".toList ++ operation ++ "'".toList
  | notOrdered type =>
    "'<=' not supported between instances of '".toList ++ type ++ "' and 'int'".toList
  | notAPath type => "expected str, bytes or os.PathLike object, not ".toList ++ type
  | unknownLevel meaning => "Unknown level: ".toList ++ quoted meaning
  | notALevel meaning => "Level not an integer or a valid string: ".toList ++ meaning
  | missingArguments => "not enough arguments for format string".toList
  | unusedArguments => "not all arguments converted during string formatting".toList
  | notANumber type => "%d format: a real number is required, not ".toList ++ type
  | incompleteFormat => "incomplete format".toList
  | unknownFormat code index =>
    "unsupported format character '".toList ++ (if code.toNat < 127 then code else '?') ::
      "' (0x".toList ++
      Nat.toDigits 16 code.toNat ++ ") at index ".toList ++ natText index

/-- Whether a session reports the fault and goes on. These are the faults of the database and
those of a value that is of the right type. -/
def isReported : Fault → Bool
  | unknownDirection _ | notAnOrder _ | notADirection _ | unknownClause | database _ _
  | unsupportedSource _ | yearOutOfRange _ | dayOutOfRange | partOutOfRange _ _ _
  | offsetOutOfRange _ | unreadableNumber _ | numberTooLong _ | nullInPath | pairLength _ _
  | unknownLevel _ | incompleteFormat | unknownFormat _ _ => true
  | _ => false

end Fault

end QuerySplice
