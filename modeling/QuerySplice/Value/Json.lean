import QuerySplice.Value

/-!
# Values as JSON text

Values are written on one line in ASCII: every other character becomes the escape of its UTF-16
units. A list has a comma and a space between its items, and a record has a colon and a space
behind each name.
-/

namespace QuerySplice.Value

open Text

/-- The UTF-16 units of a character: one, or a high and a low surrogate. -/
def units16 (c : Char) : List Nat :=
  let n := c.toNat
  if n < 0x10000 then [n] else [0xD800 + (n - 0x10000) / 0x400, 0xDC00 + (n - 0x10000) % 0x400]

def jsonEscaped (c : Char) : Text :=
  if c = '"' then ['\\', '"']
  else if c = '\\' then ['\\', '\\']
  else if c = '\n' then ['\\', 'n']
  else if c = '\r' then ['\\', 'r']
  else if c = '\t' then ['\\', 't']
  else if c = '\x08' then ['\\', 'b']
  else if c = '\x0c' then ['\\', 'f']
  else if ' ' ≤ c ∧ c ≤ '~' then [c]
  else (units16 c).flatMap fun unit => '\\' :: 'u' :: hexText 4 unit

def jsonText (s : Text) : Text := '"' :: (s.flatMap jsonEscaped ++ ['"'])

mutual

def json : Value → Text
  | null => "null".toList
  | bool true => "true".toList
  | bool false => "false".toList
  | int n => intText n
  | float x => x.text
  | text s => jsonText s
  | time t _ => jsonText t.text
  | list items => '[' :: (joined (jsonItems items) ++ [']'])
  | record fields => '{' :: (joined (jsonFields fields) ++ ['}'])
  | other _ shown _ _ => jsonText shown

def jsonItems : List Value → List Text
  | [] => []
  | v :: rest => v.json :: jsonItems rest

def jsonFields : List (Text × Value) → List Text
  | [] => []
  | (name, v) :: rest => (jsonText name ++ ':' :: ' ' :: v.json) :: jsonFields rest

end

end QuerySplice.Value
