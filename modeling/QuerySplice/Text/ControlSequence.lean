import QuerySplice.Text.Blank

/-!
# Control sequences of terminals

A control sequence begins with the escape character and an opening bracket. Parameters follow,
then intermediate characters, and one final character ends it. Texts that do not go to a terminal
are written without their control sequences. A beginning that is not completed to a sequence is
text like any other.
-/

namespace QuerySplice.Text

def isParameter (c : Char) : Bool := '0' ≤ c && c ≤ '?'

def isIntermediate (c : Char) : Bool := ' ' ≤ c && c ≤ '/'

def isFinal (c : Char) : Bool := '@' ≤ c && c ≤ '~'

/-- How far a possible control sequence has been read. -/
inductive Progress
  /-- None has begun. -/
  | outside
  /-- The escape character has been read. -/
  | escape
  /-- The bracket has been read, and perhaps parameters. -/
  | parameters
  /-- Intermediate characters have been read. -/
  | intermediates
  deriving DecidableEq, Repr

/-- What the next character makes of a possible control sequence. -/
inductive Continuation
  | goesOn (progress : Progress)
  | ends
  /-- The character does not belong to the sequence. -/
  | breaksOff
  deriving DecidableEq, Repr

def Progress.next (progress : Progress) (c : Char) : Continuation :=
  match progress with
  | outside => .breaksOff
  | escape => if c = '[' then .goesOn parameters else .breaksOff
  | parameters =>
    if isParameter c then .goesOn parameters
    else if isIntermediate c then .goesOn intermediates
    else if isFinal c then .ends
    else .breaksOff
  | intermediates =>
    if isIntermediate c then .goesOn intermediates
    else if isFinal c then .ends
    else .breaksOff

/-- Drops the control sequences from the rest of a text. The characters of the sequence that may
have begun are `held` back, last character first. -/
def dropSequences (progress : Progress) (held : Text) : Text → Text
  | [] => held.reverse
  | c :: s =>
    match progress.next c with
    | .goesOn progress => dropSequences progress (c :: held) s
    | .ends => dropSequences .outside [] s
    | .breaksOff =>
      held.reverse ++
        if c = '\x1b' then dropSequences .escape ['\x1b'] s
        else c :: dropSequences .outside [] s

/-- The text without its control sequences. -/
def withoutSequences (s : Text) : Text := dropSequences .outside [] s

end QuerySplice.Text
