import QuerySplice.Value

/-!
# Reading values from JSON text

A number with a point or an exponent is read as a floating point number and every other number as
a whole one, however large. The fields of a record keep their order. Reading takes fuel: each step
into a value or on to the next item uses one unit, and twice the length of the text is enough, as
of two steps in a row at least one reads a character.
-/

namespace QuerySplice.Value

open Text

def skipJsonBlanks (s : Text) : Text :=
  s.dropWhile fun c => c == ' ' || c == '\t' || c == '\n' || c == '\r'

/-- The value of a hexadecimal digit. -/
def hexValue? (c : Char) : Option Nat :=
  if c.isDigit then some (c.toNat - '0'.toNat)
  else if 'a' ≤ c ∧ c ≤ 'f' then some (c.toNat - 'a'.toNat + 10)
  else if 'A' ≤ c ∧ c ≤ 'F' then some (c.toNat - 'A'.toNat + 10)
  else none

/-- Reads the four hexadecimal digits of a UTF-16 unit. -/
def readUnit : Text → Option (Nat × Text)
  | a :: b :: c :: d :: s => do
    return (((← hexValue? a) * 16 + (← hexValue? b)) * 256 +
      (← hexValue? c) * 16 + (← hexValue? d), s)
  | _ => none

/-- Reads what follows the backslash of an escape. -/
def readEscape : Text → Option (Char × Text)
  | 'n' :: s => some ('\n', s)
  | 'r' :: s => some ('\r', s)
  | 't' :: s => some ('\t', s)
  | 'b' :: s => some ('\x08', s)
  | 'f' :: s => some ('\x0c', s)
  | 'u' :: s => do
    let (high, s) ← readUnit s
    if 0xD800 ≤ high ∧ high < 0xDC00 then
      match s with
      | '\\' :: 'u' :: s =>
        let (low, s) ← readUnit s
        return (Char.ofNat (0x10000 + (high - 0xD800) * 0x400 + (low - 0xDC00)), s)
      | _ => none
    else return (Char.ofNat high, s)
  | c :: s => if c = '"' ∨ c = '\\' ∨ c = '/' then some (c, s) else none
  | [] => none

/-- Reads up to a closing quote, escapes as they stand; the characters so far come last first. -/
def readQuoted : Text → Text → Option (Text × Text)
  | done, '"' :: s => some (done.reverse, s)
  | done, '\\' :: c :: s => readQuoted (c :: '\\' :: done) s
  | done, c :: s => readQuoted (c :: done) s
  | _, [] => none

/-- Replaces the escapes of a text; the characters so far come last first. -/
def unescape : Nat → Text → Text → Option Text
  | _, done, [] => some done.reverse
  | 0, _, _ :: _ => none
  | fuel + 1, done, c :: s =>
    if c = '\\' then do
      let (d, s) ← readEscape s
      unescape fuel (d :: done) s
    else unescape fuel (c :: done) s

/-- Reads a text and its closing quote. -/
def readText (s : Text) : Option (Text × Text) := do
  let (quoted, s) ← readQuoted [] s
  return (← unescape quoted.length [] quoted, s)

/-- The value of a run of ASCII digits. -/
def natOfDigits (digits : Text) : Nat :=
  digits.foldl (fun n c => 10 * n + (c.toNat - '0'.toNat)) 0

def readExponent : Text → Option (Int × Text)
  | c :: s =>
    if c = 'e' ∨ c = 'E' then
      let (negative, s) := match s with
        | '-' :: s => (true, s)
        | '+' :: s => (false, s)
        | s => (false, s)
      let digits := s.takeWhile Char.isDigit
      if digits.isEmpty then none
      else
        let size : Int := natOfDigits digits
        some (if negative then -size else size, s.dropWhile Char.isDigit)
    else none
  | [] => none

/-- Reads the point of a number and the digits behind it. -/
def readFraction : Text → Option (Text × Text)
  | '.' :: s =>
    let digits := s.takeWhile Char.isDigit
    if digits.isEmpty then none else some (digits, s.dropWhile Char.isDigit)
  | _ => none

def readNumber (s : Text) : Option (Value × Text) :=
  let (negative, s) := match s with
    | '-' :: s => (true, s)
    | s => (false, s)
  let whole := s.takeWhile Char.isDigit
  let s := s.dropWhile Char.isDigit
  if whole.isEmpty then none
  else
    match readFraction s, readExponent s with
    | none, none =>
      let size : Int := natOfDigits whole
      some (int (if negative then -size else size), s)
    | none, some (exponent, s) =>
      some (float (.ofDecimal negative (natOfDigits whole) exponent), s)
    | some (fraction, s), _ =>
      let (exponent, s) := (readExponent s).getD (0, s)
      some (float (.ofDecimal negative (natOfDigits (whole ++ fraction))
        (exponent - fraction.length)), s)

/-- Reads exactly the given letters. -/
def readLetters : Text → Text → Option Text
  | [], s => some s
  | l :: letters, c :: s => if l = c then readLetters letters s else none
  | _ :: _, [] => none

mutual

/-- Reads the value at the start of the text. -/
def readValue : Nat → Text → Option (Value × Text)
  | 0, _ => none
  | fuel + 1, s =>
    match skipJsonBlanks s with
    | '"' :: s => (readText s).map fun (t, s) => (text t, s)
    | '[' :: s =>
      match skipJsonBlanks s with
      | ']' :: s => some (list [], s)
      | s => (readItems fuel s).map fun (items, s) => (list items, s)
    | '{' :: s =>
      match skipJsonBlanks s with
      | '}' :: s => some (record [], s)
      | s => (readFields fuel s).map fun (fields, s) => (record fields, s)
    | 'n' :: s => (readLetters "ull".toList s).map fun s => (null, s)
    | 't' :: s => (readLetters "rue".toList s).map fun s => (bool true, s)
    | 'f' :: s => (readLetters "alse".toList s).map fun s => (bool false, s)
    | s => readNumber s

/-- Reads the items of a list and its closing bracket. -/
def readItems : Nat → Text → Option (List Value × Text)
  | 0, _ => none
  | fuel + 1, s => do
    let (v, s) ← readValue fuel s
    match skipJsonBlanks s with
    | ',' :: s =>
      let (rest, s) ← readItems fuel s
      return (v :: rest, s)
    | ']' :: s => return ([v], s)
    | _ => none

/-- Reads the fields of a record and its closing brace. -/
def readFields : Nat → Text → Option (List (Text × Value) × Text)
  | 0, _ => none
  | fuel + 1, s =>
    match skipJsonBlanks s with
    | '"' :: s => do
      let (name, s) ← readText s
      let s ← match skipJsonBlanks s with
        | ':' :: s => some s
        | _ => none
      let (v, s) ← readValue fuel s
      match skipJsonBlanks s with
      | ',' :: s =>
        let (rest, s) ← readFields fuel s
        return ((name, v) :: rest, s)
      | '}' :: s => return ([(name, v)], s)
      | _ => none
    | _ => none

end

/-- The value that the whole text is. -/
def ofJson? (s : Text) : Option Value := do
  let (v, rest) ← readValue (2 * s.length + 2) s
  if (skipJsonBlanks rest).isEmpty then some v else none

end QuerySplice.Value
