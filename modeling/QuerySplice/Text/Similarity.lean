import QuerySplice.Text.Blank

/-!
# Names that are like a given one

Two texts are alike as far as they share blocks: the longest block that occurs in both, the
longest blocks to the left of it on both sides, and those to the right. The similarity is the
share of the characters of both texts that lie in such blocks. A name that is not known is
answered with the names most like it.
-/

namespace QuerySplice.Text

/-- The length of the longest common beginning. -/
def commonStart : Text → Text → Nat
  | c :: s, d :: t => if c = d then commonStart s t + 1 else 0
  | _, _ => 0

/-- A block that occurs in two texts: its offsets and its size. -/
structure Block where
  left : Nat
  right : Nat
  size : Nat
  deriving DecidableEq, Repr

/-- The longest block that starts both texts at offset `left` of the one and somewhere in the
other, the first of several. -/
def blockAt (left : Nat) (s t : Text) : Block :=
  (List.range t.length).foldl
    (fun best right =>
      let size := commonStart s (t.drop right)
      if best.size < size then ⟨left, right, size⟩ else best)
    ⟨left, 0, 0⟩

/-- The longest block that occurs in both texts, the first of several. -/
def longestBlock (s t : Text) : Block :=
  (List.range s.length).foldl
    (fun best left =>
      let block := blockAt left (s.drop left) t
      if best.size < block.size then block else best)
    ⟨0, 0, 0⟩

/-- How many characters two texts share in blocks. -/
def sharedLength (s t : Text) : Nat :=
  match longestBlock s t with
  | ⟨left, right, size⟩ =>
    if _ : 0 < size ∧ left < s.length then
      sharedLength (s.take left) (t.take right) + size +
        sharedLength (s.drop (left + size)) (t.drop (right + size))
    else 0
  termination_by s.length
  decreasing_by
    · simp only [List.length_take]
      omega
    · simp only [List.length_drop]
      omega

/-- The similarity of two texts as a ratio. -/
def similarity (s t : Text) : Nat × Nat := (2 * sharedLength s t, s.length + t.length)

/-- Whether two texts share three fifths of their characters. A text cannot share more characters
than it has, so the lengths are compared first. -/
def isSimilar (s t : Text) : Bool :=
  decide (3 * (s.length + t.length) ≤ 10 * min s.length t.length) &&
    decide (3 * (similarity s t).2 ≤ 5 * (similarity s t).1)

/-- Whether `a` stands before `b` in the order of texts, by their first characters that differ. -/
def isBefore (a b : Text) : Bool := a.lex b fun c d => decide (c.toNat < d.toNat)

/-- Whether `a` comes before `b` among the texts like the given one: the more similar first, and
of two that are equally similar the later one in the order of texts. -/
def comesBefore (given a b : Text) : Bool :=
  let x := similarity a given
  let y := similarity b given
  decide (y.1 * x.2 < x.1 * y.2) || (x.1 * y.2 == y.1 * x.2 && !isBefore a b)

/-- The names most like the given one in the order of texts, three at most. -/
def closeNames (names : List Text) (given : Text) : List Text :=
  let close := (names.filter fun name => isSimilar name given).mergeSort (comesBefore given)
  (close.take 3).mergeSort fun a b => !isBefore b a

end QuerySplice.Text
