import QuerySplice.Value.Json

/-!
# Log records and their lines

A record becomes a plain line or a JSON object on one line. Fields that a record carries beyond
the common ones appear only in the JSON form: a field with the name of a common one takes its
place, and all others follow.
-/

namespace QuerySplice.Log

open Text

def debug : Int := 10

def info : Int := 20

def warning : Int := 30

/-- The name of a level in a line. -/
def levelName (level : Int) : Text :=
  if level = 0 then "NOTSET".toList
  else if level = debug then "DEBUG".toList
  else if level = info then "INFO".toList
  else if level = warning then "WARNING".toList
  else if level = 40 then "ERROR".toList
  else if level = 50 then "CRITICAL".toList
  else "Level ".toList ++ intText level

structure Record where
  level : Int
  logger : Text
  message : Text
  fields : List (Text × Value)
  deriving Repr

/-- The place in the program from which a record was made. -/
structure Site where
  function : Value
  line : Int

/-- The site that is shown where none is known. -/
def Site.unknown : Site := ⟨.text ['-'], 0⟩

/-- The times that a record is stamped with: the second for a plain line, and the instant in
universal time for a JSON line. -/
structure Times where
  plain : Time.Clock
  universal : Time.Clock

def Record.plainLine (times : Times) (r : Record) : Text :=
  times.plain.text ++ " - ".toList ++ r.logger ++ " - ".toList ++ levelName r.level ++
    " - ".toList ++ r.message

/-- A date and a time in universal time, with a capital T between them. -/
def universalText (c : Time.Clock) : Text :=
  (Time.Stamp.text ⟨c, some 0⟩).map fun d => if d = ' ' then 'T' else d

def Record.commonFields (times : Times) (site : Site) (r : Record) : List (Text × Value) :=
  [("timestamp".toList, .text (universalText times.universal)),
   ("level".toList, .text (levelName r.level)),
   ("logger".toList, .text r.logger),
   ("message".toList, .text r.message),
   ("function".toList, site.function),
   ("line".toList, .int site.line)]

def Record.jsonLine (times : Times) (site : Site) (r : Record) : Text :=
  (Value.record (Value.setFields r.fields (r.commonFields times site))).json

/-- The line of a record in the JSON form or in the plain form. -/
def Record.line (structured : Bool) (times : Times) (site : Site) (r : Record) : Text :=
  if structured then r.jsonLine times site else r.plainLine times

end QuerySplice.Log
