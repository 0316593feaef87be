import QuerySplice.Fault
import QuerySplice.Text.Case

/-!
# The lines of a shell

Lines are gathered until one ends in a semicolon, and are then run as one statement. While nothing
is gathered a line may also be an exit command, or a shortcut, which begins with a point. What a
line means depends on the lines gathered before it and on nothing else.
-/

namespace QuerySplice

open Text

/-- One answer to a prompt. -/
inductive Input
  | line (text : Text)
  | interrupt
  deriving DecidableEq, Repr

namespace Shell

/-- Whether a line ends the shell while nothing is gathered. -/
def isExit (line : Text) : Bool :=
  ["\\q", "quit", "exit"].any fun word => word.toList == (trim line).map small

/-- Whether a line is a shortcut while nothing is gathered. -/
def isShortcut (line : Text) : Bool := (trim line).head? == some '.'

/-- Whether a line completes a statement. -/
def endsStatement (line : Text) : Bool := (trim line).getLast? == some ';'

/-- Whether nothing but semicolons and blanks is in a statement. -/
def isBlankStatement (statement : Text) : Bool :=
  (trim ((trim statement).reverse.dropWhile (· == ';')).reverse).isEmpty

/-- A text that consists of digits of any kind. -/
def looksLikeNumber (s : Text) : Bool := !s.isEmpty && s.all isDigitLike

/-- The number that a text of digits stands for. -/
def number (s : Text) : Except Fault Nat :=
  let digits := (s.takeWhile isDecimal).length
  if mostDigits < digits then .error (.numberTooLong digits)
  else
    match readNat? s with
    | some n => .ok n
    | none => .error (.unreadableNumber s)

/-- What a line means to a shell. -/
inductive Reading
  | exit
  | shortcut
  /-- The line is gathered with those before it. -/
  | gathered (lines : List Text)
  /-- The line completes these lines to a statement. -/
  | statement (lines : List Text)
  deriving DecidableEq, Repr

/-- Reads a line when the lines in `buffer` have been gathered. -/
def Reading.ofLine (buffer : List Text) (line : Text) : Reading :=
  if buffer.isEmpty ∧ isExit line then .exit
  else if buffer.isEmpty ∧ isShortcut line then .shortcut
  else if endsStatement line then .statement (buffer ++ [line])
  else .gathered (buffer ++ [line])

/-- What a shortcut line asks for. Row and limit are still texts of digits. -/
inductive Shortcut
  | toggleQuery
  | setLimit (digits : Text)
  | showPage (digits : Text) (direction : Option Text)
  | unknown
  deriving Repr

/-- Reads a shortcut: its first word in any letter case, and the words behind it. -/
def Shortcut.ofLine (line : Text) : Shortcut :=
  let parts := words line
  let command := (parts.headD []).map small
  if command = ".sql".toList then .toggleQuery
  else
    match parts.tail with
    | [n] =>
      if !looksLikeNumber n then .unknown
      else if command = ".limit".toList then .setLimit n
      else if command = ".context".toList then .showPage n none
      else .unknown
    | [n, direction] =>
      if looksLikeNumber n ∧ command = ".context".toList then .showPage n (some direction)
      else .unknown
    | _ => .unknown

end Shell

end QuerySplice
