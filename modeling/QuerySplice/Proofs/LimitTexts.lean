import QuerySplice.Sql.Limit
import QuerySplice.Proofs.Letters
import QuerySplice.Sql.Scan

/-!
# The characters of a limit

A limit is written in digits, a point, signs, an exponent, or as one of the two truth values. None
of these characters is a blank, a semicolon, a quote mark or a parenthesis, and none begins `BY`, so
no limit makes its clause something else.
-/

namespace QuerySplice.Sql

open Text

variable {s t : Text}

/-- The characters in which limits are written. -/
def isLimitChar (c : Char) : Bool :=
  c.isDigit || ".+-eTrueFalse".toList.contains c

theorem isLimitChar_classes {d : Char} (hd : isLimitChar d = true) :
    isBlank d = false ∧ d ≠ ';' ∧ d ≠ '\\' ∧ isQuoteMark d = false ∧ Scan.weight d = 0 ∧
      sameLetter 'B' d = false := by
  have hall : ∀ n < 128, isLimitChar (Char.ofNat n) = true →
      isBlank (Char.ofNat n) = false ∧ Char.ofNat n ≠ ';' ∧ Char.ofNat n ≠ '\\' ∧
        isQuoteMark (Char.ofNat n) = false ∧ Scan.weight (Char.ofNat n) = 0 ∧
          sameLetter 'B' (Char.ofNat n) = false := by decide +kernel
  have hlt : d.toNat < 128 := by
    rw [isLimitChar, Bool.or_eq_true, List.contains_iff_mem] at hd
    rcases hd with hd | hd
    · simp only [Char.isDigit, Bool.and_eq_true, decide_eq_true_eq, UInt32.le_iff_toNat_le] at hd
      change _ ∧ d.toNat ≤ 57 at hd
      omega
    · have hascii : (".+-eTrueFalse".toList.all fun c => c.toNat < 128) = true := by decide
      simpa using List.all_eq_true.mp hascii d hd
  have := hall d.toNat hlt
  rw [Char.ofNat_toNat] at this
  exact this hd

theorem isLimitChar_of_mem_natText {n : Nat} {d : Char} (hd : d ∈ natText n) :
    isLimitChar d = true := by
  have hdigit : d.isDigit = true := Nat.isDigit_of_mem_toDigits (by decide) (by decide) hd
  simp [isLimitChar, hdigit]

/-- A text of characters in which limits are written. -/
def LimitChars (s : Text) : Prop := ∀ d ∈ s, isLimitChar d = true

instance (s : Text) : Decidable (LimitChars s) :=
  List.decidableBAll (fun d => isLimitChar d = true) s

namespace LimitChars

theorem append (hs : LimitChars s) (ht : LimitChars t) : LimitChars (s ++ t) := fun d hd =>
  (List.mem_append.mp hd).elim (hs d) (ht d)

theorem cons {d : Char} (hd : isLimitChar d = true) (hs : LimitChars s) : LimitChars (d :: s) :=
  append (s := [d]) (by simpa [LimitChars] using hd) hs

theorem subset (ht : LimitChars t) (h : s ⊆ t) : LimitChars s := fun d hd => ht d (h hd)

theorem natText (n : Nat) : LimitChars (natText n) := fun _ => isLimitChar_of_mem_natText

theorem zeros (n : Nat) : LimitChars (List.replicate n '0') := fun d hd => by
  rw [List.eq_of_mem_replicate hd]
  decide

theorem padded (width n : Nat) : LimitChars (padded width n) := (zeros _).append (natText n)

theorem orElse (hs : LimitChars s) (ht : LimitChars t) {p : Prop} [Decidable p] :
    LimitChars (if p then s else t) := by
  split
  · exact hs
  · exact ht

end LimitChars

open LimitChars in
theorem limitChars_positional (hs : LimitChars s) (exponent : Int) :
    LimitChars (Number.Binary64.positional s exponent) := by
  rw [Number.Binary64.positional]
  split
  · exact cons (by decide) (cons (by decide) ((zeros _).append hs))
  · have hdrop (n : Nat) : LimitChars (s.drop n) := hs.subset (List.drop_subset n s)
    have htake (n : Nat) : LimitChars (s.take n) := hs.subset (List.take_subset n s)
    exact ((htake _).append (zeros _)).append
      (cons (by decide) (orElse (by decide) (hdrop _)))

open LimitChars in
theorem limitChars_scientific (hs : LimitChars s) (exponent : Int) :
    LimitChars (Number.Binary64.scientific s exponent) := by
  have hdrop : LimitChars (s.drop 1) := hs.subset (List.drop_subset 1 s)
  have htake : LimitChars (s.take 1) := hs.subset (List.take_subset 1 s)
  have hsign : isLimitChar (if exponent < 0 then '-' else '+') = true := by split <;> decide
  exact (htake.append (orElse (by decide) (cons (by decide) hdrop))).append
    (cons (by decide) (cons hsign (padded _ _)))

open LimitChars in
theorem limitChars_fraction (y : Number.Binary64) : LimitChars y.text := by
  have hsign : LimitChars y.sign := orElse (by decide) (by decide)
  have hdigits : LimitChars y.shortestDigits.1 := by
    intro d hd
    have hmem := (List.dropWhile_suffix _).subset (List.mem_reverse.mp hd)
    exact isLimitChar_of_mem_natText (List.mem_reverse.mp hmem)
  rw [Number.Binary64.text]
  refine orElse (hsign.append (by decide)) (hsign.append (orElse ?_ ?_))
  · exact limitChars_positional hdigits _
  · exact limitChars_scientific hdigits _

/-- Every limit is written in these characters, whether it is positive or not. -/
theorem limitChars_text (limit : Limit) : LimitChars limit.text := by
  cases limit with
  | whole n =>
      cases n with
      | ofNat n => exact .natText n
      | negSucc n => exact .cons (by decide) (.natText (n + 1))
  | fraction y => exact limitChars_fraction y
  | truth b => cases b <;> decide

theorem limitText_ne_nil (limit : Limit) : limit.text ≠ [] := by
  cases limit with
  | whole n =>
      cases n with
      | ofNat n => exact Nat.toDigits_ne_nil
      | negSucc n => exact List.cons_ne_nil _ _
  | fraction y =>
      change y.text ≠ []
      rw [Number.Binary64.text]
      split
      · simp
      · dsimp only
        split
        · rw [Number.Binary64.positional]
          split <;> simp
        · simp [Number.Binary64.scientific]
  | truth b => cases b <;> decide

end QuerySplice.Sql
