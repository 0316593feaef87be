import Mathlib.Order.Bounds.Defs
import QuerySplice.Sql.Clause
import QuerySplice.Proofs.LimitNumbers
import QuerySplice.Proofs.Parts

/-!
# Where keywords stand

A keyword stands at a plain character that no open parenthesis surrounds and no name runs into,
where its words are spelled and the text behind them does not make it something else. None of this
mentions the scan. The locator finds the first such place, and finds none only if there is none.
-/

namespace QuerySplice.Sql

open Text

/-! ## The first accepted place -/

/-- Whether the scan stands at a top-level character at offset `p` from where the rest is
accepted. -/
def AcceptedAt (accepts : Text → Bool) (st : Scan) (s : Text) (p : Nat) : Prop :=
  ∃ a c b, s = a ++ c :: b ∧ a.length = p ∧ (st.after a).topLevel c = true ∧
    accepts (c :: b) = true

theorem not_acceptedAt_nil (accepts : Text → Bool) (st : Scan) (p : Nat) :
    ¬ AcceptedAt accepts st [] p := by
  rintro ⟨a, c, b, h, -⟩
  simp at h

theorem acceptedAt_zero (accepts : Text → Bool) (st : Scan) (c : Char) (s : Text) :
    AcceptedAt accepts st (c :: s) 0 ↔ (st.topLevel c && accepts (c :: s)) = true := by
  rw [Bool.and_eq_true]
  constructor
  · rintro ⟨a, d, b, h, ha, htop, hacc⟩
    obtain rfl := List.length_eq_zero_iff.mp ha
    obtain ⟨rfl, rfl⟩ := List.cons.inj h
    exact ⟨htop, hacc⟩
  · rintro ⟨htop, hacc⟩
    exact ⟨[], c, s, rfl, rfl, htop, hacc⟩

theorem acceptedAt_succ (accepts : Text → Bool) (st : Scan) (c : Char) (s : Text) (p : Nat) :
    AcceptedAt accepts st (c :: s) (p + 1) ↔ AcceptedAt accepts (st.step c) s p := by
  constructor
  · rintro ⟨a, d, b, h, ha, htop, hacc⟩
    cases a with
    | nil => simp at ha
    | cons e a =>
        obtain ⟨rfl, rfl⟩ := List.cons.inj h
        exact ⟨a, d, b, rfl, by simpa using ha, htop, hacc⟩
  · rintro ⟨a, d, b, rfl, ha, htop, hacc⟩
    exact ⟨c :: a, d, b, rfl, by simp [ha], htop, hacc⟩

/-- One answer of the finder at a time: an offset is the least accepted one, and without an answer
no offset is accepted. -/
theorem firstFrom_spec (accepts : Text → Bool) (st : Scan) (s : Text) :
    match firstFrom accepts st s with
    | some p => IsLeast {q | AcceptedAt accepts st s q} p
    | none => ∀ p, ¬ AcceptedAt accepts st s p := by
  induction s generalizing st with
  | nil => exact not_acceptedAt_nil accepts st
  | cons c s ih =>
      have ih := ih (st.step c)
      by_cases h : (st.topLevel c && accepts (c :: s)) = true
      · rw [firstFrom, if_pos h]
        exact ⟨(acceptedAt_zero ..).mpr h, fun q _ => Nat.zero_le q⟩
      · rw [firstFrom, if_neg h]
        cases hrest : firstFrom accepts (st.step c) s with
        | some p =>
            rw [hrest] at ih
            refine ⟨(acceptedAt_succ ..).mpr ih.1, fun q hq => ?_⟩
            cases q with
            | zero => exact absurd ((acceptedAt_zero ..).mp hq) h
            | succ q => exact Nat.succ_le_succ (ih.2 ((acceptedAt_succ ..).mp hq))
        | none =>
            rw [hrest] at ih
            intro p hp
            cases p with
            | zero => exact h ((acceptedAt_zero ..).mp hp)
            | succ p => exact ih p ((acceptedAt_succ ..).mp hp)

theorem firstFrom_eq_some_iff {accepts : Text → Bool} {st : Scan} {s : Text} {p : Nat} :
    firstFrom accepts st s = some p ↔ IsLeast {q | AcceptedAt accepts st s q} p := by
  have hspec := firstFrom_spec accepts st s
  constructor
  · intro h
    rwa [h] at hspec
  · intro hp
    cases h : firstFrom accepts st s with
    | some q =>
        rw [h] at hspec
        rw [Option.some.injEq]
        exact Nat.le_antisymm (hspec.2 hp.1) (hp.2 hspec.1)
    | none =>
        rw [h] at hspec
        exact absurd hp.1 (hspec p)

theorem firstFrom_eq_none_iff {accepts : Text → Bool} {st : Scan} {s : Text} :
    firstFrom accepts st s = none ↔ ∀ p, ¬ AcceptedAt accepts st s p := by
  have hspec := firstFrom_spec accepts st s
  constructor
  · intro h
    rwa [h] at hspec
  · intro hp
    cases h : firstFrom accepts st s with
    | some q =>
        rw [h] at hspec
        exact absurd hspec.1 (hp q)
    | none => rfl

/-! ## Keywords at a place -/

/-- The keywords that are looked for in queries. -/
def locatable : List Keyword :=
  Clause.all.map Clause.keyword ++ [.select, .from, .or]

/-- Blanks and an opening parenthesis. -/
def CallFollows (s : Text) : Prop := ∃ gap args, s = gap ++ '(' :: args ∧ Blank gap

/-- The text starts with the keyword: its words with gaps between them, then no character of a name
and no point. `FORMAT` and `SETTINGS` are not called, and `LIMIT` does not limit each group. -/
def KeywordAt (inName : Char → Bool) (k : Keyword) (s : Text) : Prop :=
  ∃ words rest, s = words ++ rest ∧ SpellsWords k.words words ∧
    nextIs (fun c => inName c || c == '.') rest = false ∧
    (k = Clause.format.keyword ∨ k = Clause.settings.keyword → ¬ CallFollows rest) ∧
    (k = Clause.limit.keyword → ¬ LimitByArguments inName rest)

/-- The keyword stands at offset `p` of the query, outside quotes and parentheses and behind no
name. -/
def KeywordPlace (inName : Char → Bool) (k : Keyword) (sql : Text) (p : Nat) : Prop :=
  ∃ before c after, Decomposes sql (before ++ .plain c :: after) ∧
    (textOf before).length = p ∧ depthOf before = 0 ∧
    (∀ d ∈ (textOf before).getLast?, isNameChar d = false ∧ d ≠ '.') ∧
    KeywordAt inName k (sql.drop p)

theorem continuesCall_iff (s : Text) : continuesCall s = true ↔ CallFollows s := by
  rw [continuesCall, Option.isSome_iff_exists]
  simp only [readChar_eq_some_iff]
  constructor
  · rintro ⟨args, h⟩
    obtain ⟨gap, hs, hg⟩ := exists_blank_append s
    exact ⟨gap, args, by rw [← h, ← hs], hg⟩
  · rintro ⟨gap, args, rfl, hg⟩
    exact ⟨args, trimStart_append hg (show isBlank '(' = false by decide)⟩

theorem locatable_words {k : Keyword} (hk : k ∈ locatable) :
    k.words ≠ [] ∧ ∀ word ∈ k.words, IsWord word := by
  have hall : ∀ k ∈ locatable, k.words ≠ [] ∧ ∀ word ∈ k.words, IsWord word := by decide
  exact hall k hk

theorem locatable_name {k : Keyword} (hk : k ∈ locatable) :
    (k.name = "FORMAT".toList ↔ k = Clause.format.keyword) ∧
      (k.name = "SETTINGS".toList ↔ k = Clause.settings.keyword) ∧
      (k.name = "LIMIT".toList ↔ k = Clause.limit.keyword) := by
  have hall : ∀ k ∈ locatable, (k.name = "FORMAT".toList ↔ k = Clause.format.keyword) ∧
      (k.name = "SETTINGS".toList ↔ k = Clause.settings.keyword) ∧
      (k.name = "LIMIT".toList ↔ k = Clause.limit.keyword) := by decide
  exact hall k hk

theorem isRefused_eq_false_iff {k : Keyword} (hk : k ∈ locatable) (rest : Text) :
    k.isRefused rest = false ↔
      nextIs (fun c => isNameCharAnyCase c || c == '.') rest = false ∧
      (k = Clause.format.keyword ∨ k = Clause.settings.keyword → ¬ CallFollows rest) ∧
      (k = Clause.limit.keyword → ¬ LimitByArguments isNameCharAnyCase rest) := by
  obtain ⟨hformat, hsettings, hlimit⟩ := locatable_name hk
  rw [Keyword.isRefused, continuesName_eq, ← continuesCall_iff, ← continuesLimitBy_iff, ← hformat,
    ← hsettings, ← hlimit]
  simp only [Bool.or_eq_false_iff, Bool.and_eq_false_imp, Bool.or_eq_true, beq_iff_eq,
    Bool.not_eq_true, and_assoc]

theorem startsAt_iff {k : Keyword} (hk : k ∈ locatable) (s : Text) :
    k.startsAt s = true ↔ KeywordAt isNameCharAnyCase k s := by
  obtain ⟨hne, hwords⟩ := locatable_words hk
  rw [Keyword.startsAt, Keyword.rest?, Option.isSome_iff_exists]
  simp only [Option.filter_eq_some_iff, readWords_eq_some_iff hne hwords, Bool.not_eq_true',
    isRefused_eq_false_iff hk]
  constructor
  · rintro ⟨rest, ⟨words, rfl, hw⟩, hrest⟩
    exact ⟨words, rest, rfl, hw, hrest⟩
  · rintro ⟨words, rest, rfl, hw, hrest⟩
    exact ⟨rest, ⟨words, rfl, hw⟩, hrest⟩

/-! ## The locator -/

/-- A word may start behind a text that does not end in a character of a name or a point. -/
theorem wordStart_after_iff (s : Text) :
    (Scan.start.after s).wordStart = true ↔
      ∀ d ∈ s.getLast?, isNameChar d = false ∧ d ≠ '.' := by
  rcases List.eq_nil_or_concat s with rfl | ⟨s, d, rfl⟩
  · simp [Scan.start]
  · simp [Scan.after_append, Scan.step]

theorem topLevel_iff (st : Scan) (c : Char) :
    st.topLevel c = true ↔ st.isPlainAt c ∧ st.depth = 0 ∧ st.wordStart = true := by
  simp only [Scan.topLevel, Scan.isPlainAt, Bool.and_eq_true, Bool.not_eq_true', bne_iff_ne,
    ne_eq, beq_iff_eq, and_assoc]

/-- The scan stands at a top-level character where the query splits into parts around a plain
character, no parenthesis open and no name running into it. -/
theorem acceptedAt_start_iff {accepts : Text → Bool} (sql : Text) (p : Nat) :
    AcceptedAt accepts .start sql p ↔
      ∃ before c after, Decomposes sql (before ++ .plain c :: after) ∧
        (textOf before).length = p ∧ depthOf before = 0 ∧
        (∀ d ∈ (textOf before).getLast?, isNameChar d = false ∧ d ≠ '.') ∧
        accepts (sql.drop p) = true := by
  have hstart : Scan.start.between sql := Scan.between_of_plain rfl sql
  constructor
  · rintro ⟨a, c, b, rfl, rfl, htop, hacc⟩
    obtain ⟨hplain, hdepth, hword⟩ := (topLevel_iff _ _).mp htop
    obtain ⟨parts, h⟩ := exists_decomposes (a ++ c :: b)
    obtain ⟨before, after, rfl, rfl, hd⟩ := h.exists_plain hstart rfl hplain
    refine ⟨before, c, after, h, rfl, ?_, (wordStart_after_iff _).mp hword, ?_⟩
    · rw [hdepth] at hd
      simpa [Scan.start] using hd.symm
    · rwa [List.drop_left]
  · rintro ⟨before, c, after, h, rfl, hdepth, hword, hacc⟩
    obtain ⟨hplain, hd⟩ := h.isPlainAt hstart
    have hsql : sql = textOf before ++ c :: textOf after := by
      rw [← h.textOf_eq]
      simp [textOf, Part.text]
    refine ⟨textOf before, c, textOf after, hsql, rfl, ?_, ?_⟩
    · have hzero : (Scan.start.after (textOf before)).depth = 0 := by
        rw [hd, hdepth]
        rfl
      exact (topLevel_iff _ _).mpr ⟨hplain, hzero, (wordStart_after_iff _).mpr hword⟩
    · rwa [hsql, List.drop_left] at hacc

theorem acceptedAt_iff {k : Keyword} (hk : k ∈ locatable) (sql : Text) (p : Nat) :
    AcceptedAt k.startsAt .start sql p ↔ KeywordPlace isNameCharAnyCase k sql p := by
  rw [acceptedAt_start_iff]
  simp only [startsAt_iff hk, KeywordPlace]

/-- The locator answers with the least offset at which the keyword stands, and with none exactly
when it stands nowhere. Names go on in any letter case: the dotted capital I, the dotless small i,
the long s and the Kelvin sign count as their characters. -/
theorem position?_iff_isLeast {k : Keyword} (hk : k ∈ locatable) (sql : Text) :
    (∀ p, k.position? sql = some p ↔ IsLeast {q | KeywordPlace isNameCharAnyCase k sql q} p) ∧
      (k.position? sql = none ↔ ∀ p, ¬ KeywordPlace isNameCharAnyCase k sql p) := by
  have hwords : k.words.isEmpty = false := by simpa using (locatable_words hk).1
  rw [Keyword.position?, hwords, if_neg (by simp), first?]
  simp only [← acceptedAt_iff hk]
  exact ⟨fun p => firstFrom_eq_some_iff, firstFrom_eq_none_iff⟩

/-- An order in parentheses and one in a literal are passed over, and blanks may be wide. -/
theorem position?_order_isLeast :
    Clause.order.keyword ∈ locatable ∧
      IsLeast {q | KeywordPlace isNameCharAnyCase Clause.order.keyword
        "(ORDER BY a) 'ORDER BY' order  by b".toList q} 24 :=
  ⟨by decide, ((position?_iff_isLeast (by decide) _).1 24).mp (by decide)⟩

/-- With the ASCII characters of names alone the description is wrong: a long s behind the word
`WHERE` makes it a longer name for the locator. -/
theorem not_position?_iff_isLeast_isNameChar :
    ¬ ∀ k ∈ locatable, ∀ sql : Text,
      (∀ p, k.position? sql = some p ↔ IsLeast {q | KeywordPlace isNameChar k sql q} p) ∧
        (k.position? sql = none ↔ ∀ p, ¬ KeywordPlace isNameChar k sql p) := by
  intro h
  obtain ⟨-, hnone⟩ := h Clause.filter.keyword (by decide) "WHERE\u017f".toList
  have hsql : Decomposes "WHERE\u017f".toList
      ([] ++ .plain 'W' :: "HERE\u017f".toList.map .ofChar) :=
    .single rfl (.single rfl (.single rfl (.single rfl (.single rfl (.single rfl .nil)))))
  have hword : Spells "WHERE".toList "WHERE".toList :=
    List.forall₂_same.mpr fun c _ => sameLetter_self c
  refine hnone.mp (by decide) 0 ⟨[], 'W', _, hsql, rfl, rfl, by simp, "WHERE".toList, ['\u017f'],
    rfl, .last hword, by decide, fun hk => absurd hk (by decide), fun hk => absurd hk (by decide)⟩

end QuerySplice.Sql
