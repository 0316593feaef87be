import QuerySplice.Text.Blank
import QuerySplice.Text.Case
import QuerySplice.Text.Digit

/-!
# The letters that keywords are read from

A keyword is written in ASCII capitals, and a text may spell it in any letter case. Only the ASCII
letters and four characters beyond ASCII can stand for a letter of a keyword, so no blank, digit,
quote mark or punctuation ever does.
-/

namespace QuerySplice.Text

/-- An ASCII letter, or one of the four characters that are one in another case. -/
def isLetterAnyCase (c : Char) : Bool :=
  c.isAlpha || c == '\u0130' || c == '\u0131' || c == '\u017f' || c == '\u212a'

/-- The small form of a letter, with the dotless i as an i and the long s as an s. -/
def letterKey (c : Char) : Nat :=
  if smallForm c = 0x131 then 0x69 else if smallForm c = 0x17F then 0x73 else smallForm c

/-- Below 128 only the first two letter classes have a member. -/
theorem letterClasses_any_of_lt {n : Nat} (hn : n < 128) (m : Nat) :
    (letterClasses.any fun letters => letters.contains n && letters.contains m) =
      ((n == 0x69 && (m == 0x69 || m == 0x131)) || (n == 0x73 && (m == 0x73 || m == 0x17F))) := by
  have hlate : ∀ letters ∈ letterClasses.drop 2, letters.contains n = false := by
    intro letters hl
    have hge : ∀ letters ∈ letterClasses.drop 2, ∀ k ∈ letters, 128 ≤ k := by decide
    refine Bool.eq_false_iff.mpr fun hc => ?_
    have := hge letters hl n (by simpa using hc)
    omega
  have hdrop : ((letterClasses.drop 2).any fun letters =>
      letters.contains n && letters.contains m) = false := by
    rw [List.any_eq_false]
    intro letters hl
    simp only [hlate letters hl, Bool.false_and, Bool.false_eq_true, not_false_eq_true]
  have hsplit : letterClasses = [0x0069, 0x0131] :: [0x0073, 0x017F] :: letterClasses.drop 2 := rfl
  rw [hsplit, List.any_cons, List.any_cons, hdrop, Bool.or_false]
  have h1 : (n == 0x131) = false := by simp; omega
  have h2 : (n == 0x17F) = false := by simp; omega
  simp only [List.contains_cons, List.contains_nil, Bool.or_false, h1, h2]

theorem smallForm_lt_of_ascii {c : Char} (hc : c.toNat < 128) : smallForm c < 128 := by
  have hall : ∀ n < 128, (Char.ofNat n).toLower.toNat < 128 := by decide
  have := hall c.toNat hc
  rw [Char.ofNat_toNat] at this
  simpa only [smallForm, if_pos hc] using this

/-- An ASCII character is the same letter as the characters of its key. -/
theorem sameLetter_iff {w : Char} (hw : w.toNat < 128) (c : Char) :
    sameLetter w c = true ↔ letterKey c = smallForm w := by
  have hlt := smallForm_lt_of_ascii hw
  rw [sameLetter, letterClasses_any_of_lt hlt, letterKey]
  simp only [Bool.or_eq_true, Bool.and_eq_true, beq_iff_eq]
  split
  · omega
  · split <;> omega

/-- Whatever is the same letter as two ASCII characters makes them the same letter. -/
theorem sameLetter_of_common {v w c : Char} (hv : v.toNat < 128) (hw : w.toNat < 128)
    (hvc : sameLetter v c = true) (hwc : sameLetter w c = true) : smallForm v = smallForm w :=
  ((sameLetter_iff hv c).mp hvc).symm.trans ((sameLetter_iff hw c).mp hwc)

/-- The runs of capitals whose small forms are ASCII, or one of the two letters with an ASCII key,
hold one capital each. -/
theorem capitalRuns_small {run : CapitalRun} (hr : run ∈ capitalRuns) {n : Nat}
    (hn : n ≤ run.last) (hf : run.first ≤ n)
    (hs : run.small + (n - run.first) < 128 ∨ run.small + (n - run.first) = 0x131 ∨
      run.small + (n - run.first) = 0x17F) :
    n = 0x130 ∨ n = 0x212A := by
  have hall : ∀ run ∈ capitalRuns,
      (128 ≤ run.small ∧ (run.small + (run.last - run.first) < 0x131 ∨ 0x131 < run.small) ∧
        (run.small + (run.last - run.first) < 0x17F ∨ 0x17F < run.small)) ∨
      (run.first = run.last ∧ (run.first = 0x130 ∨ run.first = 0x212A)) := by
    decide +kernel
  rcases hall run hr with h | h
  · omega
  · omega

/-- Only ASCII characters and the four others have an ASCII key. -/
theorem toNat_of_letterKey_lt {c : Char} (h : letterKey c < 128) :
    c.toNat < 128 ∨ c.toNat = 0x130 ∨ c.toNat = 0x131 ∨ c.toNat = 0x17F ∨ c.toNat = 0x212A := by
  by_cases hc : c.toNat < 128
  · exact Or.inl hc
  have hs : smallForm c < 128 ∨ smallForm c = 0x131 ∨ smallForm c = 0x17F := by
    simp only [letterKey] at h
    split at h
    · omega
    · split at h <;> omega
  simp only [smallForm, if_neg hc] at hs
  cases hrun : capitalRuns.find? fun run => run.contains c.toNat with
  | none => rw [hrun] at hs; dsimp only at hs; omega
  | some run =>
      rw [hrun] at hs
      have hin := List.find?_some hrun
      simp only [CapitalRun.contains, Bool.and_eq_true, decide_eq_true_eq] at hin
      have := capitalRuns_small (List.mem_of_find?_eq_some hrun) hin.1.2 hin.1.1 hs
      omega

theorem isAlpha_iff (c : Char) :
    c.isAlpha = true ↔
      (65 ≤ c.toNat ∧ c.toNat ≤ 90) ∨ (97 ≤ c.toNat ∧ c.toNat ≤ 122) := by
  change (decide (65 ≤ c.val ∧ c.val ≤ 90) || (decide (97 ≤ c.val) && decide (c.val ≤ 122))) = true
    ↔ _
  simp only [Bool.or_eq_true, Bool.and_eq_true, decide_eq_true_eq, UInt32.le_iff_toNat_le]
  rfl

theorem toNat_lt_of_isAlpha {c : Char} (hc : c.isAlpha = true) : c.toNat < 128 := by
  have := (isAlpha_iff c).mp hc
  omega

/-- Only letters in any case are the same letter as an ASCII letter. -/
theorem isLetterAnyCase_of_sameLetter {w c : Char} (hw : w.isAlpha = true)
    (h : sameLetter w c = true) : isLetterAnyCase c = true := by
  have hsmall : ∀ n < 128, (Char.ofNat n).isAlpha = true →
      97 ≤ smallForm (Char.ofNat n) ∧ smallForm (Char.ofNat n) ≤ 122 := by decide
  have hkey : ∀ n < 128, 97 ≤ letterKey (Char.ofNat n) → letterKey (Char.ofNat n) ≤ 122 →
      isLetterAnyCase (Char.ofNat n) = true := by decide
  have hw128 := toNat_lt_of_isAlpha hw
  have hrange := hsmall w.toNat hw128 (by rwa [Char.ofNat_toNat])
  rw [Char.ofNat_toNat, ← (sameLetter_iff hw128 c).mp h] at hrange
  rw [← Char.ofNat_toNat c] at hrange ⊢
  rcases toNat_of_letterKey_lt (c := Char.ofNat c.toNat) (by omega) with hn | hn | hn | hn | hn <;>
    rw [Char.ofNat_toNat] at hn
  · exact hkey c.toNat hn hrange.1 hrange.2
  all_goals rw [hn]; rfl

theorem isLetterAnyCase_cases {c : Char} (hc : isLetterAnyCase c = true) :
    (65 ≤ c.toNat ∧ c.toNat ≤ 90) ∨ (97 ≤ c.toNat ∧ c.toNat ≤ 122) ∨ c.toNat = 0x130 ∨
      c.toNat = 0x131 ∨ c.toNat = 0x17F ∨ c.toNat = 0x212A := by
  simp only [isLetterAnyCase, Bool.or_eq_true, beq_iff_eq] at hc
  rcases hc with (((hc | rfl) | rfl) | rfl) | rfl
  · have := (isAlpha_iff c).mp hc
    omega
  all_goals decide

/-- No letter is a blank. -/
theorem isBlank_of_letter {c : Char} (hc : isLetterAnyCase c = true) : isBlank c = false := by
  refine Bool.eq_false_iff.mpr fun hb => ?_
  obtain ⟨r, hr, hlo, hhi⟩ := (Ranges.contains_iff blanks c).mp hb
  have hout : ∀ r ∈ blanks, r.2 < 65 ∨ (122 < r.1 ∧ r.2 < 0x130) ∨
      (0x17F < r.1 ∧ r.2 < 0x212A) ∨ 0x212A < r.1 := by decide
  have := hout r hr
  have := isLetterAnyCase_cases hc
  omega

/-- A decimal digit is one of ten from a zero on. -/
theorem exists_zero_of_isDecimal {c : Char} (hc : isDecimal c = true) :
    ∃ start ∈ decimalZeros, start ≤ c.toNat ∧ c.toNat < start + 10 := by
  obtain ⟨n, hn⟩ := Option.isSome_iff_exists.mp hc
  obtain ⟨start, hs, hf⟩ := List.exists_of_findSome?_eq_some hn
  split at hf
  · next hrange => exact ⟨start, hs, hrange⟩
  · cases hf

/-- No letter is a digit. -/
theorem isDecimal_of_letter {c : Char} (hc : isLetterAnyCase c = true) : isDecimal c = false := by
  refine Bool.eq_false_iff.mpr fun hd => ?_
  obtain ⟨start, hs, hlo, hhi⟩ := exists_zero_of_isDecimal hd
  have hout : ∀ start ∈ decimalZeros, start + 10 ≤ 65 ∨ (0x17F < start ∧ start + 10 ≤ 0x212A) ∨
      0x212A < start := by decide
  have := hout start hs
  have := isLetterAnyCase_cases hc
  omega

theorem isBlank_of_decimal {c : Char} (hc : isDecimal c = true) : isBlank c = false := by
  refine Bool.eq_false_iff.mpr fun hb => ?_
  obtain ⟨r, hr, hlo, hhi⟩ := (Ranges.contains_iff blanks c).mp hb
  obtain ⟨start, hs, hlo', hhi'⟩ := exists_zero_of_isDecimal hc
  have hout : ∀ r ∈ blanks, ∀ start ∈ decimalZeros, r.2 < start ∨ start + 10 ≤ r.1 := by
    decide +kernel
  have := hout r hr start hs
  omega

/-- A character that is no letter is not the same letter as an ASCII letter. -/
theorem sameLetter_eq_false {w c : Char} (hw : w.isAlpha = true)
    (hc : isLetterAnyCase c = false) : sameLetter w c = false :=
  Bool.eq_false_iff.mpr fun h => by simp [isLetterAnyCase_of_sameLetter hw h] at hc

/-- What an ASCII digit is and is not. -/
theorem classes_of_isDigit {c : Char} (hc : c.isDigit = true) :
    isDecimal c = true ∧ isLetterAnyCase c = false ∧ c ≠ ';' := by
  have hall : ∀ n < 128, (Char.ofNat n).isDigit = true → isDecimal (Char.ofNat n) = true ∧
      isLetterAnyCase (Char.ofNat n) = false ∧ Char.ofNat n ≠ ';' := by decide
  have hlt : c.toNat < 128 := by
    simp only [Char.isDigit, Bool.and_eq_true, decide_eq_true_eq, UInt32.le_iff_toNat_le] at hc
    change _ ∧ c.toNat ≤ 57 at hc
    omega
  have := hall c.toNat hlt
  rw [Char.ofNat_toNat] at this
  exact this hc

end QuerySplice.Text
