import QuerySplice.Text.Ranges

/-!
# Blank characters

Twenty-nine characters are blank: the white space of Unicode together with the four information
separators. Trimming, splitting into words and the gaps between the words of a keyword all use
this one set. The zero width space and the byte order mark are not in it.
-/

namespace QuerySplice

/-- A text as the list of its characters: offsets and lengths count code points. -/
abbrev Text := List Char

namespace Text

def blanks : Ranges :=
  [(0x0009, 0x000D), (0x001C, 0x0020), (0x0085, 0x0085), (0x00A0, 0x00A0), (0x1680, 0x1680),
   (0x2000, 0x200A), (0x2028, 0x2029), (0x202F, 0x202F), (0x205F, 0x205F), (0x3000, 0x3000)]

def isBlank (c : Char) : Bool := blanks.contains c

/-- The text without the blanks at its start. -/
def trimStart (s : Text) : Text := s.dropWhile isBlank

/-- The text without the blanks at its end. -/
def trimEnd (s : Text) : Text := (s.reverse.dropWhile isBlank).reverse

/-- The text without the blanks at either end. -/
def trim (s : Text) : Text := trimEnd (trimStart s)

theorem trimStart_append_dropped (s : Text) :
    s.takeWhile isBlank ++ trimStart s = s := List.takeWhile_append_dropWhile

/-- What `trimEnd` drops is blank. -/
theorem exists_trimEnd_append (s : Text) :
    ∃ tail : Text, s = trimEnd s ++ tail ∧ ∀ c ∈ tail, isBlank c = true := by
  refine ⟨(s.reverse.takeWhile isBlank).reverse, ?_, ?_⟩
  · rw [trimEnd, ← List.reverse_append, List.takeWhile_append_dropWhile, List.reverse_reverse]
  · intro c hc
    exact List.all_eq_true.1 List.all_takeWhile c (List.mem_reverse.1 hc)

/-- The maximal runs of characters that are not blank, from left to right. The first argument is
the run being read, last character first. -/
def wordsFrom : Text → Text → List Text
  | run, [] => if run.isEmpty then [] else [run.reverse]
  | run, c :: s =>
    if isBlank c then
      if run.isEmpty then wordsFrom [] s else run.reverse :: wordsFrom [] s
    else wordsFrom (c :: run) s

/-- The words of a text: its maximal runs without blanks. -/
def words (s : Text) : List Text := wordsFrom [] s

end Text

end QuerySplice
