import QuerySplice.Text.Case
import QuerySplice.Text.Digit
import QuerySplice.Sql.Scan

/-!
# Keywords

A keyword is one word or several. It stands at a place of a query when its words appear there in
any letter case with blanks between them, and the text behind does not make it something else:
a longer or qualified name, a call of the function of the same name, or the per-group form of
`LIMIT`. A recogniser returns what follows the text it has read.
-/

namespace QuerySplice.Sql

open Text

/-- Reads `word` in any letter case. -/
def readWord : Text → Text → Option Text
  | [], s => some s
  | _ :: _, [] => none
  | w :: word, c :: s => if sameLetter w c then readWord word s else none

/-- Reads one blank or more. -/
def readBlanks : Text → Option Text
  | [] => none
  | c :: s => if isBlank c then some (trimStart s) else none

/-- Reads one decimal digit or more. -/
def readDigits : Text → Option Text
  | [] => none
  | c :: s => if isDecimal c then some (s.dropWhile isDecimal) else none

/-- Reads one given character. -/
def readChar (expected : Char) : Text → Option Text
  | [] => none
  | c :: s => if c = expected then some s else none

/-- Reads words with blanks between them. -/
def readWords : List Text → Text → Option Text
  | [], s => some s
  | [word], s => readWord word s
  | word :: words, s => do readWords words (← readBlanks (← readWord word s))

/-- A name character, or one of the four characters beyond ASCII that are an ASCII letter in
another case. -/
def isNameCharAnyCase (c : Char) : Bool :=
  isNameChar c || c == '\u0130' || c == '\u0131' || c == '\u017f' || c == '\u212a'

/-- Whether the text goes on with a name character, so that no word ends here. -/
def continuesWord : Text → Bool
  | [] => false
  | c :: _ => isNameCharAnyCase c

/-- Whether the text goes on with a name character or a point. -/
def continuesName : Text → Bool
  | [] => false
  | c :: _ => isNameCharAnyCase c || c == '.'

/-- Whether an argument list follows. -/
def continuesCall (s : Text) : Bool :=
  (readChar '(' (trimStart s)).isSome

/-- Reads the numbers of `LIMIT n`, `LIMIT n, m` or `LIMIT n OFFSET m`, starting behind the word
`LIMIT`. -/
def readLimitNumbers (s : Text) : Option Text := do
  let s ← readDigits (← readBlanks s)
  let s := (do readDigits (trimStart (← readChar ',' (trimStart s)))).getD s
  return (do readDigits (← readBlanks (← readWord "OFFSET".toList (← readBlanks s)))).getD s

/-- Whether the text behind the word `LIMIT` gives a limit for each group: numbers, then `BY`. -/
def continuesLimitBy (s : Text) : Bool :=
  match (do readWord "BY".toList (← readBlanks (← readLimitNumbers s)) : Option Text) with
  | some rest => !continuesWord rest
  | none => false

/-- A keyword is the list of its words. -/
structure Keyword where
  words : List Text
  deriving DecidableEq, Repr

namespace Keyword

def ofText (s : Text) : Keyword := ⟨Text.words s⟩

/-- The words in capitals with single spaces between them. -/
def name (k : Keyword) : Text :=
  inCapitals (List.intercalate [' '] k.words)

/-- Whether the text behind the words makes them something else than this keyword. `FORMAT` and
`SETTINGS` are also functions, and `LIMIT` has its per-group form. -/
def isRefused (k : Keyword) (rest : Text) : Bool :=
  continuesName rest ||
    ((k.name == "FORMAT".toList || k.name == "SETTINGS".toList) && continuesCall rest) ||
    (k.name == "LIMIT".toList && continuesLimitBy rest)

/-- What follows the keyword, if the text starts with it. -/
def rest? (k : Keyword) (s : Text) : Option Text :=
  (readWords k.words s).filter fun rest => !k.isRefused rest

def startsAt (k : Keyword) (s : Text) : Bool := (k.rest? s).isSome

/-- The offset at which the keyword first stands at the top level of a query. No place is found
for a keyword without words. -/
def position? (k : Keyword) (sql : Text) : Option Nat :=
  if k.words.isEmpty then none else first? k.startsAt sql

/-- How many characters the keyword takes at the start of the text: zero if it does not stand
there. -/
def length (k : Keyword) (s : Text) : Nat :=
  match k.rest? s with
  | some rest => s.length - rest.length
  | none => 0

def select : Keyword := ⟨["SELECT".toList]⟩

def «from» : Keyword := ⟨["FROM".toList]⟩

def or : Keyword := ⟨["OR".toList]⟩

end Keyword

/-- Whether the text starts with the per-group form of `LIMIT`. -/
def startsLimitBy (s : Text) : Bool :=
  match readWord "LIMIT".toList s with
  | some rest => continuesLimitBy rest
  | none => false

/-- The offset of the first top-level `LIMIT n BY`. -/
def limitByPosition? (sql : Text) : Option Nat := first? startsLimitBy sql

end QuerySplice.Sql
