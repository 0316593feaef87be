import Mathlib.Data.List.Forall2
import QuerySplice.Sql.Keyword
import QuerySplice.Proofs.Letters

/-!
# What the recognisers of keywords read

Each reader takes a part of a text off its front. Here every part has a description of its own: a
word is spelled letter by letter, words stand apart by blanks, and the numbers of a limit follow a
small grammar. A reader returns a rest exactly when the part in front of it fits the description.
The readers are greedy; they still miss nothing, since no letter is a blank or a digit and no blank
is a digit.
-/

namespace QuerySplice.Sql

open Text

/-- Whether the text starts with a character of the class. -/
def nextIs (inClass : Char → Bool) : Text → Bool
  | [] => false
  | c :: _ => inClass c

@[simp] theorem nextIs_nil (inClass : Char → Bool) : nextIs inClass [] = false := rfl

@[simp] theorem nextIs_cons (inClass : Char → Bool) (c : Char) (s : Text) :
    nextIs inClass (c :: s) = inClass c := rfl

theorem continuesWord_eq (s : Text) : continuesWord s = nextIs isNameCharAnyCase s := by
  cases s <;> rfl

theorem continuesName_eq (s : Text) :
    continuesName s = nextIs (fun c => isNameCharAnyCase c || c == '.') s := by
  cases s <;> rfl

theorem isNameCharAnyCase_of_letter {c : Char} (hc : isLetterAnyCase c = true) :
    isNameCharAnyCase c = true := by
  simp only [isLetterAnyCase, Bool.or_eq_true] at hc
  rcases hc with (((hc | hc) | hc) | hc) | hc <;>
    simp [isNameCharAnyCase, isNameChar, Char.isAlphanum, hc]

/-- Only characters of names are the same letter as an ASCII character of a name. -/
theorem isNameCharAnyCase_of_sameLetter {w c : Char} (hw : isNameChar w = true)
    (hascii : w.toNat < 128) (h : sameLetter w c = true) : isNameCharAnyCase c = true := by
  have hclass : ∀ n < 128, isNameChar (Char.ofNat n) =
      isNameChar (Char.ofNat (letterKey (Char.ofNat n))) := by decide
  have hsmall : ∀ n < 128, letterKey (Char.ofNat n) = smallForm (Char.ofNat n) := by decide
  have hkey := (sameLetter_iff hascii c).mp h
  have hkeyw := hsmall w.toNat hascii
  have hnamew := hclass w.toNat hascii
  rw [Char.ofNat_toNat] at hkeyw hnamew
  rcases toNat_of_letterKey_lt (hkey ▸ smallForm_lt_of_ascii hascii) with hn | hn | hn | hn | hn
  · have hnamec := hclass c.toNat hn
    rw [Char.ofNat_toNat, hkey, ← hkeyw, ← hnamew, hw] at hnamec
    simp [isNameCharAnyCase, hnamec]
  all_goals
    rw [← Char.ofNat_toNat c, hn]
    decide

/-- A character of no plain name is the same letter as an i, an s or a k of a name only. -/
theorem smallForm_of_not_isNameChar {w c : Char} (hw : isNameChar w = true) (hascii : w.toNat < 128)
    (hc : isNameChar c = false) (h : sameLetter w c = true) :
    smallForm w ∈ [0x69, 0x73, 0x6B] := by
  have hname := isNameCharAnyCase_of_sameLetter hw hascii h
  rw [← (sameLetter_iff hascii c).mp h]
  simp only [isNameCharAnyCase, hc, Bool.false_or, Bool.or_eq_true, beq_iff_eq] at hname
  rcases hname with ((rfl | rfl) | rfl) | rfl <;> decide

/-- A text of blanks. -/
def Blank (s : Text) : Prop := ∀ c ∈ s, isBlank c = true

/-- One blank or more. -/
def Gap (s : Text) : Prop := s ≠ [] ∧ Blank s

theorem blank_nil : Blank [] := by simp [Blank]

theorem gap_singleton : Gap [' '] := ⟨by simp, by simp [Blank, show isBlank ' ' = true by decide]⟩

/-- One decimal digit or more. -/
def Digits (s : Text) : Prop := s ≠ [] ∧ ∀ c ∈ s, isDecimal c = true

/-- The text is the word in some letter case. -/
def Spells (word s : Text) : Prop := List.Forall₂ (fun w c => sameLetter w c = true) word s

/-- The text is the words in some letter case, with a gap between each two. -/
inductive SpellsWords : List Text → Text → Prop
  | last {word s : Text} (hs : Spells word s) : SpellsWords [word] s
  | cons {word s gap t : Text} {words : List Text} (hw : words ≠ []) (hs : Spells word s)
      (hg : Gap gap) (ht : SpellsWords words t) : SpellsWords (word :: words) (s ++ gap ++ t)

theorem dropWhile_eq_self {inClass : Char → Bool} {s : Text} (hs : nextIs inClass s = false) :
    s.dropWhile inClass = s := by
  cases s with
  | nil => rfl
  | cons c s =>
      rw [nextIs_cons] at hs
      rw [List.dropWhile_cons_of_neg (by simp [hs])]

theorem trimStart_append {gap s : Text} (hg : Blank gap) (hs : nextIs isBlank s = false) :
    trimStart (gap ++ s) = s := by
  rw [trimStart, List.dropWhile_append_of_pos hg]
  exact dropWhile_eq_self hs

theorem nextIs_dropWhile (inClass : Char → Bool) (s : Text) :
    nextIs inClass (s.dropWhile inClass) = false := by
  induction s with
  | nil => rfl
  | cons c s ih =>
      by_cases hc : inClass c = true
      · rwa [List.dropWhile_cons_of_pos hc]
      · rw [List.dropWhile_cons_of_neg hc, nextIs_cons]
        exact Bool.eq_false_iff.mpr hc

theorem all_takeWhile (inClass : Char → Bool) (s : Text) :
    ∀ c ∈ s.takeWhile inClass, inClass c = true := fun c hc =>
  List.all_eq_true.mp List.all_takeWhile c hc

/-- Every text is its leading blanks and the rest. -/
theorem exists_blank_append (s : Text) :
    ∃ gap, s = gap ++ trimStart s ∧ Blank gap :=
  ⟨s.takeWhile isBlank, (trimStart_append_dropped s).symm, all_takeWhile isBlank s⟩

/-- Reading a character of a class and then as many more as there are takes the longest run of
the class off the text. -/
theorem run_iff {inClass : Char → Bool} {c : Char} {s rest : Text} :
    inClass c = true ∧ s.dropWhile inClass = rest ↔
      ∃ run, c :: s = run ++ rest ∧ (run ≠ [] ∧ ∀ d ∈ run, inClass d = true) ∧
        nextIs inClass rest = false := by
  constructor
  · rintro ⟨hc, rfl⟩
    refine ⟨c :: s.takeWhile inClass, by simp [List.takeWhile_append_dropWhile], ⟨by simp, ?_⟩,
      nextIs_dropWhile inClass s⟩
    intro d hd
    rcases List.mem_cons.mp hd with rfl | hd
    · exact hc
    · exact all_takeWhile inClass s d hd
  · rintro ⟨run, hs, ⟨hne, hrun⟩, hrest⟩
    cases run with
    | nil => exact absurd rfl hne
    | cons d run =>
        obtain ⟨rfl, htext⟩ := List.cons.inj hs
        have htail : ∀ e ∈ run, inClass e = true := fun e he => hrun e (by simp [he])
        refine ⟨hrun c (by simp), ?_⟩
        rw [show s = run ++ rest from htext, List.dropWhile_append_of_pos htail]
        exact dropWhile_eq_self hrest

theorem readBlanks_eq_some_iff {s rest : Text} :
    readBlanks s = some rest ↔
      ∃ gap, s = gap ++ rest ∧ Gap gap ∧ nextIs isBlank rest = false := by
  cases s with
  | nil => simp +contextual [readBlanks, Gap]
  | cons c s =>
      rw [readBlanks, Option.ite_none_right_eq_some, Option.some.injEq]
      exact run_iff

theorem readDigits_eq_some_iff {s rest : Text} :
    readDigits s = some rest ↔
      ∃ digits, s = digits ++ rest ∧ Digits digits ∧ nextIs isDecimal rest = false := by
  cases s with
  | nil => simp +contextual [readDigits, Digits]
  | cons c s =>
      rw [readDigits, Option.ite_none_right_eq_some, Option.some.injEq]
      exact run_iff

theorem readWord_eq_some_iff {word s rest : Text} :
    readWord word s = some rest ↔ ∃ t, s = t ++ rest ∧ Spells word t := by
  induction word generalizing s with
  | nil => simp [readWord, Spells, List.forall₂_nil_left_iff]
  | cons w word ih =>
      cases s with
      | nil =>
          constructor
          · intro h
            simp [readWord] at h
          · rintro ⟨t, ht, hs⟩
            obtain ⟨rfl, -⟩ := List.append_eq_nil_iff.mp ht.symm
            simp [Spells] at hs
      | cons c s =>
          constructor
          · intro h
            by_cases hc : sameLetter w c = true
            · simp only [readWord, hc, if_true] at h
              obtain ⟨t, rfl, ht⟩ := ih.mp h
              exact ⟨c :: t, rfl, List.Forall₂.cons hc ht⟩
            · simp [readWord, hc] at h
          · rintro ⟨t, ht, hs⟩
            cases hs with
            | cons hc htail =>
                obtain ⟨rfl, rfl⟩ := List.cons.inj ht
                simp only [readWord, hc, if_true]
                exact ih.mpr ⟨_, rfl, htail⟩

/-- The words of keywords: at least one letter, and ASCII letters alone. -/
def IsWord (word : Text) : Prop := word ≠ [] ∧ ∀ c ∈ word, c.isAlpha = true

instance (word : Text) : Decidable (IsWord word) :=
  decidable_of_iff (word ≠ [] ∧ word.all Char.isAlpha = true)
    (and_congr_right fun _ => List.all_eq_true)

/-- A text of ASCII characters. -/
def Ascii (s : Text) : Prop := ∀ c ∈ s, c.toNat < 128

theorem ascii_of_isAlpha {s : Text} (hs : ∀ c ∈ s, c.isAlpha = true) : Ascii s := fun c hc =>
  toNat_lt_of_isAlpha (hs c hc)

theorem IsWord.ascii {word : Text} (hw : IsWord word) : Ascii word := ascii_of_isAlpha hw.2

/-- Whether two words differ in a letter that both have, so that no text begins with both. -/
def differ : Text → Text → Bool
  | v :: vs, w :: ws => smallForm v != smallForm w || differ vs ws
  | _, _ => false

/-- A text that spells one word does not begin with a word that differs from it. -/
theorem readWord_eq_none_of_differ {v w s : Text} (hv : Ascii v) (hw : Ascii w)
    (hd : differ v w = true) (hs : Spells v s) (rest : Text) : readWord w (s ++ rest) = none := by
  induction v generalizing w s with
  | nil => simp [differ] at hd
  | cons a v ih =>
      cases w with
      | nil => simp [differ] at hd
      | cons b w =>
          cases hs with
          | @cons _ c _ s hac hs =>
              by_cases hbc : sameLetter b c = true
              · have hsame : smallForm a = smallForm b :=
                  sameLetter_of_common (hv a (by simp)) (hw b (by simp)) hac hbc
                have hrest : differ v w = true := by simpa [differ, hsame] using hd
                simp only [List.cons_append, readWord, hbc, if_true]
                exact ih (fun d hd => hv d (by simp [hd])) (fun d hd => hw d (by simp [hd])) hrest
                  hs
              · simp [readWord, hbc]

/-- A spelling of a word starts with a letter. -/
theorem Spells.exists_cons {word s : Text} (hw : IsWord word) (hs : Spells word s) :
    ∃ c t, s = c :: t ∧ isLetterAnyCase c = true := by
  cases hs with
  | nil => exact absurd rfl hw.1
  | cons hc ht => exact ⟨_, _, rfl, isLetterAnyCase_of_sameLetter (hw.2 _ (by simp)) hc⟩

theorem Spells.length_eq {word s : Text} (hs : Spells word s) : s.length = word.length :=
  (List.Forall₂.length_eq hs).symm

theorem SpellsWords.exists_cons {words : List Text} {s : Text}
    (hw : ∀ word ∈ words, IsWord word) (hs : SpellsWords words s) :
    ∃ c t, s = c :: t ∧ isLetterAnyCase c = true := by
  cases hs with
  | last hs => exact hs.exists_cons (hw _ (by simp))
  | cons hne hs hg ht =>
      obtain ⟨c, t, rfl, hc⟩ := hs.exists_cons (hw _ (by simp))
      exact ⟨c, _, rfl, hc⟩

theorem readWords_cons {word : Text} {words : List Text} (hne : words ≠ []) (s : Text) :
    readWords (word :: words) s =
      (readWord word s).bind fun rest => (readBlanks rest).bind (readWords words) := by
  cases words with
  | nil => exact absurd rfl hne
  | cons v words => rfl

/-- Words are read exactly where they are spelled with gaps between them. -/
theorem readWords_eq_some_iff {words : List Text} (hne : words ≠ [])
    (hw : ∀ word ∈ words, IsWord word) {s rest : Text} :
    readWords words s = some rest ↔ ∃ t, s = t ++ rest ∧ SpellsWords words t := by
  induction words generalizing s with
  | nil => exact absurd rfl hne
  | cons word words ih =>
      by_cases hlast : words = []
      · subst hlast
        rw [readWords, readWord_eq_some_iff]
        constructor
        · rintro ⟨t, rfl, ht⟩
          exact ⟨t, rfl, .last ht⟩
        · rintro ⟨t, rfl, ht⟩
          cases ht with
          | last hs => exact ⟨t, rfl, hs⟩
          | cons hwne => exact absurd rfl hwne
      · have hwords : ∀ word ∈ words, IsWord word := fun v hv => hw v (by simp [hv])
        rw [readWords_cons hlast]
        simp only [Option.bind_eq_some_iff, readWord_eq_some_iff, readBlanks_eq_some_iff,
          ih hlast hwords]
        constructor
        · rintro ⟨a, ⟨t, rfl, ht⟩, b, ⟨gap, rfl, hg, -⟩, u, rfl, hu⟩
          exact ⟨t ++ gap ++ u, by simp, .cons hlast ht hg hu⟩
        · rintro ⟨t, rfl, ht⟩
          cases ht with
          | last => exact absurd rfl hlast
          | @cons _ t gap u _ _ hs hg hu =>
              obtain ⟨c, v, rfl, hc⟩ := hu.exists_cons hwords
              refine ⟨gap ++ (c :: v) ++ rest, ⟨t, by simp, hs⟩, (c :: v) ++ rest,
                ⟨gap, by simp, hg, ?_⟩, c :: v, rfl, hu⟩
              simpa using isBlank_of_letter hc

end QuerySplice.Sql
