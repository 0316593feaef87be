import QuerySplice.Fault
import QuerySplice.Time.Calendar

/-!
# Time stamps

A stamp is a clock time with or without an offset from universal time. A stamp with an offset
denotes an instant; in a query it is written as the universal time of that instant. The fraction
of a second is written only if it is not zero, and always with six digits.
-/

namespace QuerySplice.Time

open Text Number

namespace Clock

/-- The date and the time with a space between them. -/
def text (c : Clock) : Text :=
  padded 4 c.year ++ '-' :: padded 2 c.month ++ '-' :: padded 2 c.day ++
    ' ' :: padded 2 c.hour ++ ':' :: padded 2 c.minute ++ ':' :: padded 2 c.second ++
    if c.micro = 0 then [] else '.' :: padded 6 c.micro

/-- The numbers of a clock. Zeros at the end are left out: a fraction, and seconds without one. -/
def numbers (c : Clock) : List Nat :=
  [c.year, c.month, c.day, c.hour, c.minute] ++
    if c.micro ≠ 0 then [c.second, c.micro] else if c.second ≠ 0 then [c.second] else []

/-- The clock that is ahead of `c` by this many seconds. -/
def ahead (c : Clock) (seconds : Int) : Clock :=
  ofMicros (c.micros + 1000000 * seconds)

/-- The clock that is ahead of `c` by this many seconds, if it is in the calendar. -/
def ahead? (c : Clock) (seconds : Int) : Option Clock :=
  ofMicros? (c.micros + 1000000 * seconds)

end Clock

/-- A clock time. The offset is in seconds ahead of universal time. -/
structure Stamp where
  clock : Clock
  offset : Option Int
  deriving DecidableEq, Repr

/-- A part of a clock time that has to lie between two values. -/
def checkedPart (name : String) (least greatest : Nat) (part : Int) : Except Fault Nat :=
  if least ≤ part ∧ part ≤ greatest then .ok part.toNat
  else .error (.partOutOfRange name.toList least greatest)

/-- Refuses a part of a clock time that does not fit its word. -/
def fitPart (part : Int) : Except Fault Unit :=
  if !Word.long.holds part then .error (.beyondWord .long)
  else if Word.int.holds part then .ok ()
  else .error (if part < 0 then .partTooSmall else .partTooGreat)

/-- The clock time of these parts: date, hour, minute, second and microsecond. All parts have to
fit their words before any is looked at more closely. -/
def Clock.ofParts (year month day hour minute second micro : Int) : Except Fault Clock := do
  [year, month, day, hour, minute, second, micro].forM fitPart
  if ¬(1 ≤ year ∧ year ≤ Clock.lastYear) then throw (.yearOutOfRange year)
  let year := year.toNat
  let month ← checkedPart "month" 1 12 month
  if ¬(1 ≤ day ∧ day ≤ (monthLengths year).getD (month - 1) 0) then throw .dayOutOfRange
  let hour ← checkedPart "hour" 0 23 hour
  let minute ← checkedPart "minute" 0 59 minute
  let second ← checkedPart "second" 0 59 second
  return ⟨year, month, day.toNat, hour, minute, second,
    ← checkedPart "microsecond" 0 999999 micro⟩

/-- The most days that a span of time can have. -/
def mostDays : Nat := 999999999

/-- An offset of less than a day. It has to be a span of time in the first place. -/
def checkedOffset (offset : Int) : Except Fault Int :=
  let days := offset / 86400
  if !Word.int.holds days then .error (.beyondWord .int)
  else if mostDays < days.natAbs then .error (.tooManyDays days)
  else if offset.natAbs < 86400 then .ok offset
  else .error (.offsetOutOfRange offset)

/-- An offset as hours and minutes, and as seconds if there are any. -/
def offsetText (offset : Int) : Text :=
  let size := offset.natAbs
  (if offset < 0 then '-' else '+') :: padded 2 (size / 3600) ++
    ':' :: padded 2 (size / 60 % 60) ++
    if size % 60 = 0 then [] else ':' :: padded 2 (size % 60)

namespace Stamp

def text (s : Stamp) : Text :=
  match s.offset with
  | none => s.clock.text
  | some offset => s.clock.text ++ offsetText offset

/-- The clock to write in a query: universal time for a stamp with an offset, the stamp's own time
for one without. -/
def universal? (s : Stamp) : Option Clock :=
  match s.offset with
  | none => some s.clock
  | some offset => s.clock.ahead? (-offset)

/-- The stamp as an expression of a query, if its universal time is in the calendar. -/
def expression? (s : Stamp) : Option Text :=
  s.universal?.map fun clock => "TIMESTAMP '".toList ++ clock.text ++ ['\x27']

end Stamp

end QuerySplice.Time
