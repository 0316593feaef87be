import QuerySplice.Text.Blank
import QuerySplice.Text.Printable

/-!
# Quoted texts in messages

Messages show a text between single quotes, or between double quotes if it holds a single quote
and no double one. A backslash, the quote in use and every character that is not printable are
written as escapes, so the text can be read off the message without doubt.
-/

namespace QuerySplice.Text

/-- A digit below sixteen, in small letters. -/
def hexDigit (n : Nat) : Char := Nat.digitChar n

/-- The last `width` hexadecimal digits of `n`. -/
def hexText : Nat → Nat → Text
  | 0, _ => []
  | width + 1, n => hexText width (n / 16) ++ [hexDigit (n % 16)]

/-- The escape of a character by its code point, in the shortest of the three widths. -/
def numericEscape (c : Char) : Text :=
  if c.toNat < 0x100 then '\\' :: 'x' :: hexText 2 c.toNat
  else if c.toNat < 0x10000 then '\\' :: 'u' :: hexText 4 c.toNat
  else '\\' :: 'U' :: hexText 8 c.toNat

def escaped (mark c : Char) : Text :=
  if c = mark ∨ c = '\\' then ['\\', c]
  else if c = '\n' then ['\\', 'n']
  else if c = '\r' then ['\\', 'r']
  else if c = '\t' then ['\\', 't']
  else if isPrintable c then [c]
  else numericEscape c

/-- The mark around a quoted text. -/
def quoteMark (s : Text) : Char :=
  if s.contains '\x27' && !s.contains '"' then '"' else '\x27'

def quoted (s : Text) : Text :=
  quoteMark s :: (s.flatMap (escaped (quoteMark s)) ++ [quoteMark s])

end QuerySplice.Text
