import QuerySplice.Text.Blank

/-!
# Quoting names and literals

A name is written between double quotes and a literal between single quotes; a mark inside is
written twice.
-/

namespace QuerySplice.Sql

/-- Writes every `mark` of the text twice. -/
def doubled (mark : Char) (s : Text) : Text :=
  s.flatMap fun c => if c = mark then [c, c] else [c]

def quotedWith (mark : Char) (s : Text) : Text :=
  mark :: (doubled mark s ++ [mark])

def quoteName (name : Text) : Text := quotedWith '"' name

def quoteLiteral (value : Text) : Text := quotedWith '\x27' value

theorem doubled_append (mark : Char) (s t : Text) :
    doubled mark (s ++ t) = doubled mark s ++ doubled mark t := by
  simp [doubled]

end QuerySplice.Sql
