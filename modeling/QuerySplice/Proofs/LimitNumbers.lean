import QuerySplice.Proofs.Readers

/-!
# The numbers of a limit

`LIMIT` is followed by one number, by two with a comma between them, or by a number and an offset;
with `BY` behind them the numbers limit each group. The reader of the numbers never goes back. It
still accepts everything the grammar does, because no part of the grammar can be mistaken for the
beginning of the next one.
-/

namespace QuerySplice.Sql

open Text

/-- A comma and a number. -/
def PairTail (s : Text) : Prop :=
  ∃ gap gap' digits, s = gap ++ ',' :: (gap' ++ digits) ∧ Blank gap ∧ Blank gap' ∧ Digits digits

/-- The word `OFFSET` and a number. -/
def OffsetTail (s : Text) : Prop :=
  ∃ gap word gap' digits, s = gap ++ (word ++ (gap' ++ digits)) ∧ Gap gap ∧
    Spells "OFFSET".toList word ∧ Gap gap' ∧ Digits digits

/-- What stands between the word `LIMIT` and the end of its numbers. -/
def LimitNumbers (s : Text) : Prop :=
  ∃ gap digits pair offset, s = gap ++ (digits ++ (pair ++ offset)) ∧ Gap gap ∧ Digits digits ∧
    (pair = [] ∨ PairTail pair) ∧ (offset = [] ∨ OffsetTail offset)

/-- What stands behind the word `LIMIT` when it limits each group: numbers and the word `BY`, which
no character of a name follows. -/
def LimitByArguments (inName : Char → Bool) (s : Text) : Prop :=
  ∃ numbers gap word rest, s = numbers ++ (gap ++ (word ++ rest)) ∧ LimitNumbers numbers ∧
    Gap gap ∧ Spells "BY".toList word ∧ nextIs inName rest = false

theorem Gap.nextIs_append {inClass : Char → Bool} {gap : Text} (hg : Gap gap)
    (hc : ∀ c, isBlank c = true → inClass c = false) (rest : Text) :
    nextIs inClass (gap ++ rest) = false := by
  obtain ⟨hne, hb⟩ := hg
  cases gap with
  | nil => exact absurd rfl hne
  | cons c gap => exact hc c (hb c (by simp))

theorem isDecimal_of_blank {c : Char} (hc : isBlank c = true) : isDecimal c = false :=
  Bool.eq_false_iff.mpr fun hd => by simp [isBlank_of_decimal hd] at hc

/-- A blank belongs to no name and no number. -/
theorem isNameChar_or_decimal_of_blank {c : Char} (hc : isBlank c = true) :
    (isNameCharAnyCase c || isDecimal c || c == '.') = false := by
  have hletter : isLetterAnyCase c = false :=
    Bool.eq_false_iff.mpr fun h => by simp [isBlank_of_letter h] at hc
  have hdigit : c.isDigit = false := Bool.eq_false_iff.mpr fun h => by
    simp [isBlank_of_decimal ((classes_of_isDigit h).1)] at hc
  have hother : c ≠ '_' ∧ c ≠ '.' := by
    constructor <;> rintro rfl <;> exact absurd hc (by decide)
  simp only [isLetterAnyCase, Bool.or_eq_false_iff] at hletter
  simp [isNameCharAnyCase, isNameChar, Char.isAlphanum, isDecimal_of_blank hc, hdigit, hletter,
    hother]

theorem Digits.nextIs_isBlank {digits : Text} (hd : Digits digits) (rest : Text) :
    nextIs isBlank (digits ++ rest) = false := by
  obtain ⟨hne, hd⟩ := hd
  cases digits with
  | nil => exact absurd rfl hne
  | cons c digits => exact isBlank_of_decimal (hd c (by simp))

/-- Reads a comma and a number. -/
def readPair (s : Text) : Option Text := do
  readDigits (trimStart (← readChar ',' (trimStart s)))

/-- Reads the word `OFFSET` and a number. -/
def readOffset (s : Text) : Option Text := do
  readDigits (← readBlanks (← readWord "OFFSET".toList (← readBlanks s)))

theorem readLimitNumbers_eq (s : Text) :
    readLimitNumbers s = ((readBlanks s).bind readDigits).map fun rest =>
      (readOffset ((readPair rest).getD rest)).getD ((readPair rest).getD rest) := by
  simp only [readLimitNumbers, readPair, readOffset, bind, pure]
  cases readBlanks s with
  | none => rfl
  | some s =>
      simp only [Option.bind_some]
      cases readDigits s <;> rfl

theorem readChar_eq_some_iff {d : Char} {s rest : Text} :
    readChar d s = some rest ↔ s = d :: rest := by
  cases s with
  | nil => simp [readChar]
  | cons c s =>
      by_cases hc : c = d
      · simp [readChar, hc]
      · simp [readChar, hc]

theorem readPair_eq_some_iff {s rest : Text} :
    readPair s = some rest ↔
      ∃ t, s = t ++ rest ∧ PairTail t ∧ nextIs isDecimal rest = false := by
  simp only [readPair, bind, Option.bind_eq_some_iff, readChar_eq_some_iff, readDigits_eq_some_iff]
  constructor
  · rintro ⟨a, hs, digits, ha, hd, hr⟩
    obtain ⟨gap, hgap, hg⟩ := exists_blank_append s
    obtain ⟨gap', hgap', hg'⟩ := exists_blank_append a
    refine ⟨gap ++ ',' :: (gap' ++ digits), ?_, ⟨gap, gap', digits, rfl, hg, hg', hd⟩, hr⟩
    rw [hgap, hs, hgap', ha]
    simp
  · rintro ⟨t, rfl, ⟨gap, gap', digits, rfl, hg, hg', hd⟩, hr⟩
    refine ⟨gap' ++ (digits ++ rest), ?_, digits, ?_, hd, hr⟩
    · rw [List.append_assoc, List.cons_append, List.append_assoc]
      exact trimStart_append hg (show isBlank ',' = false by decide)
    · exact trimStart_append hg' (hd.nextIs_isBlank rest)

theorem isWord_offset : IsWord "OFFSET".toList := by decide

theorem isWord_by : IsWord "BY".toList := by decide

/-- A spelling of a word does not start with a blank. -/
theorem Spells.nextIs_isBlank {word s : Text} (hw : IsWord word) (hs : Spells word s)
    (rest : Text) : nextIs isBlank (s ++ rest) = false := by
  obtain ⟨c, t, rfl, hc⟩ := hs.exists_cons hw
  exact isBlank_of_letter hc

theorem readOffset_eq_some_iff {s rest : Text} :
    readOffset s = some rest ↔
      ∃ t, s = t ++ rest ∧ OffsetTail t ∧ nextIs isDecimal rest = false := by
  simp only [readOffset, bind, Option.bind_eq_some_iff, readBlanks_eq_some_iff,
    readWord_eq_some_iff, readDigits_eq_some_iff]
  constructor
  · rintro ⟨a, ⟨gap, rfl, hg, -⟩, b, ⟨word, rfl, hw⟩, d, ⟨gap', rfl, hg', -⟩, digits, rfl, hd, hr⟩
    exact ⟨gap ++ (word ++ (gap' ++ digits)), by simp,
      ⟨gap, word, gap', digits, rfl, hg, hw, hg', hd⟩, hr⟩
  · rintro ⟨t, rfl, ⟨gap, word, gap', digits, rfl, hg, hw, hg', hd⟩, hr⟩
    refine ⟨word ++ (gap' ++ (digits ++ rest)),
      ⟨gap, by simp, hg, hw.nextIs_isBlank isWord_offset _⟩, gap' ++ (digits ++ rest),
      ⟨word, rfl, hw⟩, digits ++ rest, ⟨gap', rfl, hg', hd.nextIs_isBlank rest⟩, digits, rfl, hd,
      hr⟩

theorem PairTail.nextIs_isDecimal {s : Text} (hs : PairTail s) (rest : Text) :
    nextIs isDecimal (s ++ rest) = false := by
  obtain ⟨gap, gap', digits, rfl, hg, -, -⟩ := hs
  cases gap with
  | nil => exact (show isDecimal ',' = false by decide)
  | cons c gap => exact isDecimal_of_blank (hg c (by simp))

theorem OffsetTail.nextIs_isDecimal {s : Text} (hs : OffsetTail s) (rest : Text) :
    nextIs isDecimal (s ++ rest) = false := by
  obtain ⟨gap, word, gap', digits, rfl, hg, -⟩ := hs
  rw [List.append_assoc]
  exact hg.nextIs_append (fun c => isDecimal_of_blank) _

/-- A gap and a word hold no comma that a number could follow. -/
theorem readPair_eq_none {gap word s : Text} (hg : Blank gap) (hw : IsWord word)
    (hs : Spells word s) (rest : Text) : readPair (gap ++ (s ++ rest)) = none := by
  rw [readPair, trimStart_append hg (hs.nextIs_isBlank hw rest)]
  obtain ⟨c, t, rfl, hc⟩ := hs.exists_cons hw
  have hne : c ≠ ',' := by
    rintro rfl
    exact absurd hc (by decide)
  simp [readChar, hne]

theorem readLimitNumbers_sound {s rest : Text} (h : readLimitNumbers s = some rest) :
    ∃ t, s = t ++ rest ∧ LimitNumbers t := by
  rw [readLimitNumbers_eq, Option.map_eq_some_iff] at h
  obtain ⟨a, ha, hrest⟩ := h
  obtain ⟨b, hb, hdig⟩ := Option.bind_eq_some_iff.mp ha
  obtain ⟨gap, rfl, hg, -⟩ := readBlanks_eq_some_iff.mp hb
  obtain ⟨digits, rfl, hd, -⟩ := readDigits_eq_some_iff.mp hdig
  have hpair : ∃ pair, a = pair ++ (readPair a).getD a ∧ (pair = [] ∨ PairTail pair) := by
    cases hp : readPair a with
    | none => exact ⟨[], rfl, Or.inl rfl⟩
    | some r =>
        obtain ⟨pair, hr, hpair, -⟩ := readPair_eq_some_iff.mp hp
        exact ⟨pair, hr, Or.inr hpair⟩
  obtain ⟨pair, hpa, hpair⟩ := hpair
  have hoff : ∃ offset, (readPair a).getD a = offset ++ rest ∧
      (offset = [] ∨ OffsetTail offset) := by
    cases ho : readOffset ((readPair a).getD a) with
    | none =>
        rw [ho] at hrest
        exact ⟨[], hrest, Or.inl rfl⟩
    | some r =>
        rw [ho] at hrest
        obtain ⟨offset, hr, hoff, -⟩ := readOffset_eq_some_iff.mp ho
        exact ⟨offset, hr.trans (by rw [← hrest]; rfl), Or.inr hoff⟩
  obtain ⟨offset, hof, hoff⟩ := hoff
  refine ⟨gap ++ (digits ++ (pair ++ offset)), ?_, gap, digits, pair, offset, rfl, hg, hd, hpair,
    hoff⟩
  rw [hpa, hof]
  simp

/-- The numbers are read to their end when no digit follows, no comma with a number and no
offset. -/
theorem readLimitNumbers_append {s rest : Text} (hs : LimitNumbers s)
    (hd : nextIs isDecimal rest = false) (hp : readPair rest = none)
    (ho : readOffset rest = none) : readLimitNumbers (s ++ rest) = some rest := by
  obtain ⟨gap, digits, pair, offset, rfl, hg, hdig, hpair, hoff⟩ := hs
  have hoffset : nextIs isDecimal (offset ++ rest) = false := by
    rcases hoff with rfl | hoff
    · exact hd
    · exact hoff.nextIs_isDecimal rest
  have hpairs : nextIs isDecimal (pair ++ (offset ++ rest)) = false := by
    rcases hpair with rfl | hpair
    · exact hoffset
    · exact hpair.nextIs_isDecimal _
  have hread : (readBlanks (gap ++ (digits ++ (pair ++ (offset ++ rest))))).bind readDigits =
      some (pair ++ (offset ++ rest)) := by
    rw [readBlanks_eq_some_iff.mpr ⟨gap, rfl, hg, hdig.nextIs_isBlank _⟩, Option.bind_some]
    exact readDigits_eq_some_iff.mpr ⟨digits, rfl, hdig, hpairs⟩
  have hafterPair : (readPair (pair ++ (offset ++ rest))).getD (pair ++ (offset ++ rest)) =
      offset ++ rest := by
    rcases hpair with rfl | hpair
    · rcases hoff with rfl | ⟨gap, word, gap', n, rfl, hg, hw, -, -⟩
      · rw [List.nil_append, List.nil_append, hp]
        rfl
      · have := readPair_eq_none hg.2 isWord_offset hw (gap' ++ n ++ rest)
        simp only [List.nil_append, List.append_assoc] at this ⊢
        rw [this]
        rfl
    · rw [readPair_eq_some_iff.mpr ⟨pair, rfl, hpair, hoffset⟩]
      rfl
  have hafterOffset : (readOffset (offset ++ rest)).getD (offset ++ rest) = rest := by
    rcases hoff with rfl | hoff
    · rw [List.nil_append, ho]
      rfl
    · rw [readOffset_eq_some_iff.mpr ⟨offset, rfl, hoff, hd⟩]
      rfl
  simp only [List.append_assoc]
  rw [readLimitNumbers_eq, hread, Option.map_some, hafterPair, hafterOffset]

/-- Reads the numbers of a limit and the word `BY`. -/
def readLimitBy (s : Text) : Option Text :=
  (readLimitNumbers s).bind fun rest => (readBlanks rest).bind (readWord "BY".toList)

theorem continuesLimitBy_eq (s : Text) :
    continuesLimitBy s = (readLimitBy s).any fun rest => !continuesWord rest := by
  unfold continuesLimitBy
  split
  · next rest h =>
      have hread : readLimitBy s = some rest := h
      rw [hread]
      rfl
  · next h =>
      have hread : readLimitBy s = none := h
      rw [hread]
      rfl

/-- A limit for each group is recognised exactly where its arguments stand. -/
theorem continuesLimitBy_iff (s : Text) :
    continuesLimitBy s = true ↔ LimitByArguments isNameCharAnyCase s := by
  simp only [continuesLimitBy_eq, readLimitBy, Option.any_eq_true, Option.bind_eq_some_iff,
    readBlanks_eq_some_iff, readWord_eq_some_iff, continuesWord_eq, Bool.not_eq_true']
  constructor
  · rintro ⟨rest, ⟨a, ha, b, ⟨gap, rfl, hg, -⟩, word, rfl, hw⟩, hrest⟩
    obtain ⟨numbers, rfl, hn⟩ := readLimitNumbers_sound ha
    exact ⟨numbers, gap, word, rest, rfl, hn, hg, hw, hrest⟩
  · rintro ⟨numbers, gap, word, rest, rfl, hn, hg, hw, hrest⟩
    refine ⟨rest, ⟨gap ++ (word ++ rest), readLimitNumbers_append hn ?_ ?_ ?_, word ++ rest,
      ⟨gap, rfl, hg, hw.nextIs_isBlank isWord_by rest⟩, word, rfl, hw⟩, hrest⟩
    · exact hg.nextIs_append (fun c => isDecimal_of_blank) _
    · exact readPair_eq_none hg.2 isWord_by hw rest
    · have hoff : readWord "OFFSET".toList (word ++ rest) = none :=
        readWord_eq_none_of_differ isWord_by.ascii isWord_offset.ascii (by decide) hw rest
      rw [readOffset, readBlanks_eq_some_iff.mpr ⟨gap, rfl, hg, hw.nextIs_isBlank isWord_by rest⟩]
      simp only [bind, Option.bind_some, hoff, Option.bind_none]

end QuerySplice.Sql
