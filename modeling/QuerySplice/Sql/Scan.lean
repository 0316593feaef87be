import QuerySplice.Text.Blank

/-!
# Scanning a query from left to right

The scan reads a query one character at a time and keeps three things: how many parentheses are
open, whether the next character stands in a quoted section, and whether a word may start there.
Inside a quoted section a backslash takes the next character with it and a doubled mark stays
inside; a section that is never closed runs to the end of the query. Closing parentheses are
counted even when none is open, so the depth can be negative.

A character is *top-level* when it is plain text at depth zero where a word may start. Every
clause is looked for at top-level characters only, and the finders below are the first and all of
these places at which a given test accepts the rest of the query.
-/

namespace QuerySplice.Sql

/-- The marks that open a quoted section: two for names and one for literals. -/
def isQuoteMark (c : Char) : Bool :=
  c == '\x27' || c == '"' || c == '\x60'

/-- The characters of a plain name. -/
def isNameChar (c : Char) : Bool :=
  c.isAlphanum || c == '_'

inductive Mode
  /-- Outside quotes. -/
  | plain
  /-- Inside a section opened by this mark. -/
  | quoted (mark : Char)
  /-- Inside such a section, just after a backslash. -/
  | escaped (mark : Char)
  /-- Just after the mark that closes a section, unless the same mark follows. -/
  | closing (mark : Char)
  deriving DecidableEq, Repr

structure Scan where
  depth : Int
  mode : Mode
  wordStart : Bool
  deriving DecidableEq, Repr

namespace Scan

/-- Where every scan begins. -/
def start : Scan := ⟨0, .plain, true⟩

/-- Whether the next character `c` is read outside quotes. -/
def outside (st : Scan) (c : Char) : Bool :=
  match st.mode with
  | .plain => true
  | .closing mark => c != mark
  | .quoted _ | .escaped _ => false

/-- The change of depth that `c` brings when it is read outside quotes. -/
def weight (c : Char) : Int :=
  if c = '(' then 1 else if c = ')' then -1 else 0

/-- How the character after `c` is read. -/
def modeAfter (st : Scan) (c : Char) : Mode :=
  if st.outside c then
    if isQuoteMark c then .quoted c else .plain
  else
    match st.mode with
    | .quoted mark =>
      if c = '\\' then .escaped mark else if c = mark then .closing mark else .quoted mark
    | .escaped mark => .quoted mark
    | .closing mark => .quoted mark
    | .plain => .plain

def step (st : Scan) (c : Char) : Scan where
  depth := if st.outside c then st.depth + weight c else st.depth
  mode := st.modeAfter c
  wordStart := !(isNameChar c || c == '.')

/-- The scan after all characters of `s`. -/
def after (st : Scan) (s : Text) : Scan := s.foldl step st

@[simp] theorem after_nil (st : Scan) : st.after [] = st := rfl

@[simp] theorem after_cons (st : Scan) (c : Char) (s : Text) :
    st.after (c :: s) = (st.step c).after s := rfl

theorem after_append (st : Scan) (s t : Text) : st.after (s ++ t) = (st.after s).after t := by
  simp [after]

/-- Whether `c` is plain text at depth zero where a word may start. -/
def topLevel (st : Scan) (c : Char) : Bool :=
  st.outside c && !isQuoteMark c && c != '(' && c != ')' && st.depth == 0 && st.wordStart

/-- Whether the next character would be read outside quotes, whatever it is. -/
def isOutside (st : Scan) : Bool :=
  match st.mode with
  | .plain | .closing _ => true
  | .quoted _ | .escaped _ => false

end Scan

/-- The offset of the first top-level character from which `accepts` accepts the rest of the
query. The scan reaches the query in state `st`. -/
def firstFrom (accepts : Text → Bool) : Scan → Text → Option Nat
  | _, [] => none
  | st, c :: s =>
    if st.topLevel c && accepts (c :: s) then some 0
    else (firstFrom accepts (st.step c) s).map (· + 1)

/-- The first top-level place of a query that `accepts` accepts. -/
def first? (accepts : Text → Bool) (sql : Text) : Option Nat :=
  firstFrom accepts .start sql

/-- All top-level places that `accepts` accepts, in increasing order. -/
def allFrom (accepts : Text → Bool) : Scan → Text → List Nat
  | _, [] => []
  | st, c :: s =>
    let later := (allFrom accepts (st.step c) s).map (· + 1)
    if st.topLevel c && accepts (c :: s) then 0 :: later else later

/-- The first place is the head of all places. -/
theorem firstFrom_eq_head? (accepts : Text → Bool) (st : Scan) (s : Text) :
    firstFrom accepts st s = (allFrom accepts st s).head? := by
  induction s generalizing st with
  | nil => rfl
  | cons c s ih =>
    simp only [firstFrom, allFrom]
    split
    · rfl
    · rw [ih, List.head?_map]

end QuerySplice.Sql
