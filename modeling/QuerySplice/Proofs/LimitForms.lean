import QuerySplice.Proofs.Removals

/-!
# The two forms of `LIMIT`

The word `LIMIT` limits the rows of a query, or with numbers and `BY` behind it those of each group.
Two recognisers share the word. One refuses what the other accepts, so wherever the word stands and
no name goes on from it, exactly one of them accepts, and the earliest limit of either form is the
first such word at top level. An edit that removes a limit of rows reads its numbers once more, and
`BY` never stands behind the numbers it has read.
-/

namespace QuerySplice.Sql

open Text

variable {inName : Char → Bool} {s u v sql numbers behind : Text}

/-! ## The word -/

/-- The text starts with the word `LIMIT`, which no character of a name and no point follows. -/
def LimitWordAt (inName : Char → Bool) (s : Text) : Prop :=
  ∃ word rest, s = word ++ rest ∧ Spells "LIMIT".toList word ∧
    nextIs (fun c => inName c || c == '.') rest = false

/-- The landmarks with the word `LIMIT` are its two forms. -/
theorem Landmark.word_eq_limit_iff (l : Landmark) :
    l.word = "LIMIT".toList ↔ l = .clause .limit ∨ l = .perGroup := by
  have hall : ∀ l ∈ Landmark.all,
      (l.word = "LIMIT".toList ↔ l = .clause .limit ∨ l = .perGroup) := by decide
  exact hall l l.mem_all

theorem Landmark.limitWordAt {l : Landmark} (hl : l = .clause .limit ∨ l = .perGroup)
    (h : l.startsAt s = true) : LimitWordAt isNameCharAnyCase s := by
  have hafter : l ∈ Clause.after .order := by rcases hl with rfl | rfl <;> decide
  obtain ⟨word, rest, hs, hword, hrest, -⟩ := Landmark.word_of_startsAt hafter h
  rw [(Landmark.word_eq_limit_iff l).mpr hl] at hword
  exact ⟨word, rest, hs, hword, hrest⟩

theorem limitWordAt_iff (s : Text) :
    LimitWordAt isNameCharAnyCase s ↔
      Clause.limit.keyword.startsAt s = true ∨ startsLimitBy s = true := by
  constructor
  · rintro ⟨word, rest, rfl, hword, hrest⟩
    obtain ⟨l, hl, hstarts⟩ := Landmark.exists_startsAt_of_word (l := .perGroup) (by decide) hword
      hrest (by rintro (h | h) <;> cases h)
    rcases (Landmark.word_eq_limit_iff l).mp hl with rfl | rfl
    · exact Or.inl hstarts
    · exact Or.inr hstarts
  · rintro (hrows | hgroups)
    · exact Landmark.limitWordAt (Or.inl rfl) hrows
    · exact Landmark.limitWordAt (Or.inr rfl) hgroups

/-- Where the word stands it has one form, and elsewhere it has none. -/
theorem limitWordAt_iff_xor (s : Text) :
    LimitWordAt isNameCharAnyCase s ↔
      Xor (Clause.limit.keyword.startsAt s = true) (startsLimitBy s = true) := by
  rw [limitWordAt_iff, xor_iff_or_and_not_and]
  refine (and_iff_left ?_).symm
  rintro ⟨hrows, hgroups⟩
  rw [not_startsLimitBy_of_startsAt hrows] at hgroups
  cases hgroups

/-! ## The first word -/

/-- The word `LIMIT` stands at offset `p` of the query, outside quotes and parentheses and behind no
name. -/
def LimitWordPlace (inName : Char → Bool) (sql : Text) (p : Nat) : Prop :=
  ∃ before c after, Decomposes sql (before ++ .plain c :: after) ∧
    (textOf before).length = p ∧ depthOf before = 0 ∧
    (∀ d ∈ (textOf before).getLast?, isNameChar d = false ∧ d ≠ '.') ∧
    LimitWordAt inName (sql.drop p)

/-- Whether the text starts with either form of `LIMIT`. -/
def startsEitherLimit (s : Text) : Bool := Clause.limit.keyword.startsAt s || startsLimitBy s

theorem acceptedAt_startsEitherLimit_iff (sql : Text) (p : Nat) :
    AcceptedAt startsEitherLimit .start sql p ↔ LimitWordPlace isNameCharAnyCase sql p := by
  rw [acceptedAt_start_iff]
  simp only [startsEitherLimit, Bool.or_eq_true, ← limitWordAt_iff, LimitWordPlace]

/-- The earliest limit is the first that one scan for both forms accepts. -/
theorem firstPosition?_limit (sql : Text) :
    firstPosition? [Clause.limit.keyword] sql = first? startsEitherLimit sql := by
  have hfirst := min?_first? [.clause .limit, .perGroup] sql
  rw [firstPosition?, List.flatMap_singleton, boundaries_keyword, if_pos rfl, hfirst]
  simp only [List.any_cons, List.any_nil, Bool.or_false]
  rfl

theorem firstPosition?_limit_eq_some_iff (sql : Text) (p : Nat) :
    firstPosition? [Clause.limit.keyword] sql = some p ↔
      IsLeast {q | LimitWordPlace isNameCharAnyCase sql q} p := by
  simp only [firstPosition?_limit, first?, firstFrom_eq_some_iff, acceptedAt_startsEitherLimit_iff]

theorem firstPosition?_limit_eq_none_iff (sql : Text) :
    firstPosition? [Clause.limit.keyword] sql = none ↔
      ∀ p, ¬ LimitWordPlace isNameCharAnyCase sql p := by
  simp only [firstPosition?_limit, first?, firstFrom_eq_none_iff, acceptedAt_startsEitherLimit_iff]

/-! ## The numbers of a removed limit -/

/-- Blanks and the word `BY`, which no character of a name follows. -/
def ByFollows (inName : Char → Bool) (s : Text) : Prop :=
  ∃ gap word rest, s = gap ++ (word ++ rest) ∧ Gap gap ∧ Spells "BY".toList word ∧
    nextIs inName rest = false

theorem ByFollows.limitByArguments (h : ByFollows inName behind) (hn : LimitNumbers numbers) :
    LimitByArguments inName (numbers ++ behind) := by
  obtain ⟨gap, word, rest, rfl, hg, hw, hrest⟩ := h
  exact ⟨numbers, gap, word, rest, rfl, hn, hg, hw, hrest⟩

/-- The text in front of a limit and the text behind its numbers, with one blank between them if
there is text behind. -/
def closeUp (u behind : Text) : Text :=
  if (trim behind).isEmpty then trimEnd u else trimEnd u ++ ' ' :: trim behind

theorem removeLimit_eq_closeUp (h : Clause.limit.position? sql = some u.length)
    (htrim : trimTerminator sql = u ++ v)
    (hnone : firstPosition? Clause.limit.followingKeywords v = none)
    (hread : readLimit v = some behind) : removeLimit sql = closeUp u behind := by
  rw [removeLimit_of_split h htrim, hnone, closeUp]
  simp only [hread]

/-- With `BY` behind its numbers a limit would be one for each group. -/
theorem not_byFollows_of_readLimit (hv : Clause.limit.keyword.startsAt v = true)
    (hread : readLimit v = some behind) : ¬ ByFollows isNameCharAnyCase behind := by
  intro hby
  obtain ⟨word, numbers, rfl, hw, hn⟩ := readLimit_sound hread
  have hgroups : startsLimitBy (word ++ (numbers ++ behind)) = true :=
    (startsLimitBy_iff _).mpr ⟨word, numbers ++ behind, rfl, hw, hby.limitByArguments hn⟩
  rw [not_startsLimitBy_of_startsAt hv] at hgroups
  cases hgroups

/-! ## The word shared out -/

/-- The recognisers of the two forms of `LIMIT` share out every place of the word in a query. -/
structure TwoFormsOfLimit (inName : Char → Bool) (sql : Text) : Prop where
  /-- Exactly one of them accepts where the word stands, and only there. -/
  one_form (p : Nat) : LimitWordAt inName (sql.drop p) ↔
    Xor (Clause.limit.keyword.startsAt (sql.drop p) = true) (startsLimitBy (sql.drop p) = true)
  /-- A limit for each group is accepted where the word stands in front of its arguments. -/
  perGroup_iff (p : Nat) : startsLimitBy (sql.drop p) = true ↔
    ∃ word rest, sql.drop p = word ++ rest ∧ Spells "LIMIT".toList word ∧
      LimitByArguments inName rest
  /-- The earliest limit of either form is the first word at top level. -/
  first_iff (p : Nat) : firstPosition? [Clause.limit.keyword] sql = some p ↔
    IsLeast {q | LimitWordPlace inName sql q} p
  first_none_iff : firstPosition? [Clause.limit.keyword] sql = none ↔
    ∀ p, ¬ LimitWordPlace inName sql p
  /-- The limit of rows is removed with the numbers behind its word, and no `BY` follows them. -/
  removed (p : Nat) (hp : Clause.limit.position? sql = some p) (behind : Text)
    (hread : readLimit ((trimTerminator sql).drop p) = some behind) :
    (∃ word numbers, (trimTerminator sql).drop p = word ++ (numbers ++ behind) ∧
        Spells "LIMIT".toList word ∧ LimitNumbers numbers) ∧
      (firstPosition? Clause.limit.followingKeywords ((trimTerminator sql).drop p) = none →
        removeLimit sql = closeUp ((trimTerminator sql).take p) behind) ∧
      ¬ ByFollows inName behind

/-- Every word `LIMIT` of a query has one of the two forms. Names go on in any letter case: the
dotted capital I, the dotless small i, the long s and the Kelvin sign count as their characters. -/
theorem twoFormsOfLimit (sql : Text) : TwoFormsOfLimit isNameCharAnyCase sql where
  one_form p := limitWordAt_iff_xor (sql.drop p)
  perGroup_iff p := startsLimitBy_iff (sql.drop p)
  first_iff p := firstPosition?_limit_eq_some_iff sql p
  first_none_iff := firstPosition?_limit_eq_none_iff sql
  removed p hp behind hread := by
    obtain ⟨u, v, htrim, rfl, -, hv⟩ := Clause.exists_trimTerminator_append hp
    rw [htrim, List.drop_left] at hread
    rw [htrim, List.drop_left, List.take_left]
    refine ⟨readLimit_sound hread, ?_, not_byFollows_of_readLimit hv hread⟩
    intro hnone
    exact removeLimit_eq_closeUp hp htrim hnone hread

/-- A limit for each group, one in parentheses and one of rows, with a word that begins as `BY` does
behind its numbers. -/
def twoLimitsSample : Text :=
  "SELECT a LIMIT 2 ,3 BY b, (LIMIT 1) limit 4\tOFFSET 5 BYTES ;".toList

/-- The first word is that of the limit for each group, and the limit of rows is removed up to the
longer word. -/
theorem twoFormsOfLimit_twoLimitsSample :
    LimitWordAt isNameCharAnyCase (twoLimitsSample.drop 9) ∧
      LimitWordAt isNameCharAnyCase (twoLimitsSample.drop 36) ∧
      IsLeast {q | LimitWordPlace isNameCharAnyCase twoLimitsSample q} 9 ∧
      Clause.limit.position? twoLimitsSample = some 36 ∧
      readLimit ((trimTerminator twoLimitsSample).drop 36) = some " BYTES".toList ∧
      removeLimit twoLimitsSample = "SELECT a LIMIT 2 ,3 BY b, (LIMIT 1) BYTES".toList ∧
      ¬ ByFollows isNameCharAnyCase " BYTES".toList := by
  have hforms := twoFormsOfLimit twoLimitsSample
  have hposition : Clause.limit.position? twoLimitsSample = some 36 := by decide
  have hread : readLimit ((trimTerminator twoLimitsSample).drop 36) = some " BYTES".toList := by
    decide
  obtain ⟨-, hremoved, hby⟩ := hforms.removed 36 hposition _ hread
  refine ⟨?_, ?_, ?_, hposition, hread, (hremoved (by decide)).trans (by decide), hby⟩
  · exact (hforms.one_form 9).mpr (by decide)
  · exact (hforms.one_form 36).mpr (by decide)
  · exact (hforms.first_iff 9).mp (by decide)

/-- With the ASCII characters of names alone the description is wrong twice: in front of a long s
the word has no form at all, and a long s behind `BY` leaves the limit one of rows. -/
theorem not_twoFormsOfLimit_isNameChar :
    ¬ TwoFormsOfLimit isNameChar "LIMIT\u017f".toList ∧
      ¬ TwoFormsOfLimit isNameChar "LIMIT 1 BY\u017f".toList := by
  have hdigits : Digits ['1'] := ⟨by decide, List.forall_mem_singleton.mpr (by decide)⟩
  constructor
  · intro h
    have hword : LimitWordAt isNameChar ("LIMIT\u017f".toList.drop 0) :=
      ⟨"LIMIT".toList, ['\u017f'], rfl, spells_self _, by decide⟩
    exact absurd ((h.one_form 0).mp hword) (by decide)
  · intro h
    have hnumbers : LimitNumbers " 1".toList :=
      ⟨[' '], ['1'], [], [], rfl, gap_singleton, hdigits, Or.inl rfl, Or.inl rfl⟩
    have hargs : LimitByArguments isNameChar " 1 BY\u017f".toList :=
      ⟨" 1".toList, [' '], "BY".toList, ['\u017f'], rfl, hnumbers, gap_singleton, spells_self _,
        by decide⟩
    have hgroups := (h.perGroup_iff 0).mpr ⟨"LIMIT".toList, _, rfl, spells_self _, hargs⟩
    exact absurd hgroups (by decide)

end QuerySplice.Sql
