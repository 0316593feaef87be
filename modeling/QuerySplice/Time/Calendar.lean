/-!
# The proleptic Gregorian calendar

Dates from the first of January of year 1 are counted in days, and clock times in microseconds
since the start of that day. The calendar rule of today holds for all years. `Clock.ofMicros`
takes the count apart again. A clock shows the years 1 to 9999 only, and `Clock.ofMicros?` has an
answer for these.
-/

namespace QuerySplice.Time

def isLeapYear (year : Nat) : Bool :=
  year % 4 == 0 && (year % 100 != 0 || year % 400 == 0)

/-- The lengths of the months of a year. -/
def monthLengths (year : Nat) : List Nat :=
  [31, if isLeapYear year then 29 else 28, 31, 30, 31, 30, 31, 31, 30, 31, 30, 31]

/-- The days of all years before `year`. -/
def daysBeforeYear (year : Nat) : Nat :=
  let past := year - 1
  365 * past + past / 4 - past / 100 + past / 400

/-- The days of the months before `month` in its year. -/
def daysBeforeMonth (year month : Nat) : Nat :=
  ((monthLengths year).take (month - 1)).foldr (· + ·) 0

/-- The year that holds the day with this count, and the day's place in the year. Whole periods of
400, 100, 4 and 1 years are taken off in turn; the last day of a leap year belongs to the year
before the period's end. -/
def yearOfDays (days : Nat) : Nat × Nat :=
  let quads := days / 146097
  let rest := days % 146097
  let centuries := min (rest / 36524) 3
  let rest := rest - 36524 * centuries
  let fours := rest / 1461
  let rest := rest % 1461
  let years := min (rest / 365) 3
  (400 * quads + 100 * centuries + 4 * fours + years + 1, rest - 365 * years)

/-- The month and the day that a place in a year falls on. The months still ahead are given by
their lengths. -/
def monthOfDays : Nat → List Nat → Nat → Nat × Nat
  | month, [], day => (month, day + 1)
  | month, length :: lengths, day =>
    if day < length then (month, day + 1) else monthOfDays (month + 1) lengths (day - length)

/-- A date and a time of day. -/
structure Clock where
  year : Nat
  month : Nat
  day : Nat
  hour : Nat
  minute : Nat
  second : Nat
  micro : Nat
  deriving DecidableEq, Repr

namespace Clock

/-- The years that a clock can show. -/
def lastYear : Nat := 9999

/-- Whether the parts name a date of the calendar and a time of the day. -/
def isValid (c : Clock) : Bool :=
  decide (1 ≤ c.year ∧ c.year ≤ lastYear ∧ 1 ≤ c.month ∧ c.month ≤ 12 ∧ 1 ≤ c.day ∧
    c.day ≤ (monthLengths c.year).getD (c.month - 1) 0 ∧
    c.hour < 24 ∧ c.minute < 60 ∧ c.second < 60 ∧ c.micro < 1000000)

/-- The days before the date. -/
def days (c : Clock) : Nat :=
  daysBeforeYear c.year + daysBeforeMonth c.year c.month + (c.day - 1)

/-- The microseconds since the start of year 1. -/
def micros (c : Clock) : Int :=
  ((((c.days * 24 + c.hour) * 60 + c.minute) * 60 + c.second) * 1000000 + c.micro : Nat)

/-- The clock with this count of microseconds. -/
def ofCount (micros : Nat) : Clock :=
  let seconds := micros / 1000000
  let minutes := seconds / 60
  let hours := minutes / 60
  let (year, place) := yearOfDays (hours / 24)
  let (month, day) := monthOfDays 1 (monthLengths year) place
  { year, month, day, hour := hours % 24, minute := minutes % 60, second := seconds % 60,
    micro := micros % 1000000 }

/-- The first day of the year before the calendar, which stands for all time before it. -/
def before : Clock := ⟨0, 1, 1, 0, 0, 0, 0⟩

/-- The clock of an instant. -/
def ofMicros : Int → Clock
  | .ofNat n => ofCount n
  | .negSucc _ => before

/-- Whether the year is one that a clock can show. -/
def isShown (c : Clock) : Bool := decide (1 ≤ c.year ∧ c.year ≤ lastYear)

/-- The clock that shows an instant, if its year has four digits and is not zero. -/
def ofMicros? (micros : Int) : Option Clock :=
  if (ofMicros micros).isShown then some (ofMicros micros) else none

end Clock

end QuerySplice.Time
