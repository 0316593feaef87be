import QuerySplice.Text.Blank
import QuerySplice.Text.Digit

/-!
# Whole numbers in decimal

Numbers are written in ASCII digits without leading zeros. They are read more freely: white space
around the number, a sign, the decimal digits of any script, and single underscores between two
digits. A number of very many digits is not read.
-/

namespace QuerySplice.Text

def natText (n : Nat) : Text := Nat.toDigits 10 n

def intText : Int → Text
  | .ofNat n => natText n
  | .negSucc n => '-' :: natText (n + 1)

/-- The digits of `n`, with zeros in front up to the given width. -/
def padded (width n : Nat) : Text :=
  let digits := natText n
  List.replicate (width - digits.length) '0' ++ digits

/-- Reads digits to the end of the text. The number read so far is `n`, and `afterDigit` says
whether a digit came just before, as an underscore needs one on both sides. -/
def readNatFrom (n : Nat) (afterDigit : Bool) : Text → Option Nat
  | [] => if afterDigit then some n else none
  | c :: s =>
    match digitValue? c with
    | some d => readNatFrom (10 * n + d) true s
    | none => if c = '_' ∧ afterDigit then readNatFrom n false s else none

def readNat? (s : Text) : Option Nat := readNatFrom 0 false s

/-- The most digits that a number may have to be read. -/
def mostDigits : Nat := 4300

/-- White space around a number: all blanks but the information separators. -/
def isSpace (c : Char) : Bool := isBlank c && !(0x1C ≤ c.toNat && c.toNat ≤ 0x1F)

/-- The text without the white space at either end. -/
def trimSpace (s : Text) : Text :=
  ((s.dropWhile isSpace).reverse.dropWhile isSpace).reverse

/-- Reads a whole number with an optional sign. -/
def readInt? (s : Text) : Option Int :=
  if mostDigits < s.countP isDecimal then none
  else
    match trimSpace s with
    | '-' :: digits => (readNat? digits).map fun n => -(n : Int)
    | '+' :: digits => (readNat? digits).map Int.ofNat
    | digits => (readNat? digits).map Int.ofNat

end QuerySplice.Text
