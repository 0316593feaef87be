import QuerySplice.Proofs.Aggregates
import QuerySplice.Proofs.Slices

/-!
# Aggregate calls as words

The search for aggregate calls tries every listed name at every word boundary of the projection, and
some of the names begin others. It still reads whole words only: a name is spelled with word
characters, and neither a blank nor a parenthesis is one, so the name that is read in front of an
argument list is a maximal run of word characters. The projection itself is found by two scans, one
of them over a slice; both places are places of the whole query.
-/

namespace QuerySplice.Sql

open Text

variable {s t u v sql run after : Text} {inWord : Bool}

/-! ## The projection between its places -/

/-- The text between the end of the first `SELECT` of the query and the first `FROM` behind it. -/
def IsProjection (sql t : Text) : Prop :=
  ∃ p q, IsLeast {p | KeywordPlace isNameCharAnyCase .select sql p} p ∧
    IsLeast {q | p + 6 ≤ q ∧ KeywordPlace isNameCharAnyCase .from sql q} q ∧
    t = slice sql (p + 6, q)

/-- The whole query is a slice of itself. -/
theorem findsFrom_position? {k : Keyword} (hk : k ∈ locatable) (sql : Text) :
    FindsFrom (KeywordPlace isNameCharAnyCase k sql) 0 (k.position? sql) := by
  have hwhole : FindsFrom (AcceptedAt k.startsAt .start sql) 0 (first? k.startsAt sql) :=
    findsFrom_of_iff (u := []) fun q => Iff.rfl
  rw [Keyword.position?_eq_first? hk]
  apply hwhole.congr
  exact acceptedAt_iff hk sql

theorem isLeast_of_position?_eq_some {k : Keyword} {p : Nat} (hk : k ∈ locatable)
    (h : k.position? sql = some p) : IsLeast {q | KeywordPlace isNameCharAnyCase k sql q} p := by
  simpa using ((findsFrom_position? hk sql).some_iff p).mp h

theorem position?_eq_none_iff_forall {k : Keyword} (hk : k ∈ locatable) (sql : Text) :
    k.position? sql = none ↔ ∀ p, ¬ KeywordPlace isNameCharAnyCase k sql p := by
  simpa using (findsFrom_position? hk sql).none_iff

/-- `SELECT` ends six characters behind its place, and a slice may begin there. -/
theorem keywordEdge_select {p : Nat} (h : Keyword.select.position? sql = some p) :
    KeywordEdge sql (p + 6) ∧ Keyword.select.length (sql.drop p) = 6 := by
  obtain ⟨u, v, rfl, rfl, -, hstarts⟩ := Keyword.exists_append (by decide) h
  obtain ⟨w, body, rfl, hw, -, hlength⟩ := Keyword.exists_words (by decide) hstarts u
  obtain ⟨-, -, -, -, -, -, hsix⟩ := exists_select_word hstarts
  have hwords : w.length = 6 := by
    cases hw with
    | last hw => exact hw.length_eq
    | cons hne => exact absurd rfl hne
  rw [List.drop_left]
  refine ⟨?_, hsix⟩
  apply KeywordEdge.finish (by decide) h
  rw [hlength, hwords]
  rfl

/-- The scan of the slice behind `SELECT` answers with the places of the whole query. -/
theorem projection?_eq_map {p : Nat} (h : Keyword.select.position? sql = some p) :
    projection? sql =
      (Keyword.from.position? (sql.drop (p + 6))).map fun r => slice sql (p + 6, p + 6 + r) := by
  obtain ⟨-, hsix⟩ := keywordEdge_select h
  simp only [projection?, h, hsix, bind, Option.bind_some, pure, slice, List.drop_take,
    Nat.add_sub_cancel_left]
  cases Keyword.from.position? (sql.drop (p + 6)) <;> rfl

theorem projection?_eq_some_iff (sql t : Text) :
    projection? sql = some t ↔ IsProjection sql t := by
  constructor
  · intro h
    cases hp : Keyword.select.position? sql with
    | none =>
        rw [projection?, hp] at h
        cases h
    | some p =>
        rw [projection?_eq_map hp, Option.map_eq_some_iff] at h
        obtain ⟨r, hr, rfl⟩ := h
        have hfrom := (keywordEdge_select hp).1.findsFrom_position? (k := .from) (by decide)
        exact ⟨p, p + 6 + r, isLeast_of_position?_eq_some (by decide) hp, (hfrom.some_iff r).mp hr,
          rfl⟩
  · rintro ⟨p, q, hp, hq, rfl⟩
    have hselect : Keyword.select.position? sql = some p := by
      apply ((findsFrom_position? (by decide) sql).some_iff p).mpr
      simpa using hp
    have hfrom := (keywordEdge_select hselect).1.findsFrom_position? (k := .from) (by decide)
    obtain ⟨r, rfl⟩ := Nat.exists_eq_add_of_le hq.1.1
    rw [projection?_eq_map hselect, (hfrom.some_iff r).mpr hq]
    rfl

/-- There is no projection exactly when one of its two keywords is missing. -/
theorem projection?_eq_none_iff (sql : Text) :
    projection? sql = none ↔
      (∀ p, ¬ KeywordPlace isNameCharAnyCase .select sql p) ∨
        ∃ p, IsLeast {p | KeywordPlace isNameCharAnyCase .select sql p} p ∧
          ∀ q, p + 6 ≤ q → ¬ KeywordPlace isNameCharAnyCase .from sql q := by
  cases hp : Keyword.select.position? sql with
  | none =>
      have hmissing := (position?_eq_none_iff_forall (by decide) sql).mp hp
      apply iff_of_true
      · rw [projection?, hp]
        rfl
      · exact Or.inl hmissing
  | some p =>
      have hleast := isLeast_of_position?_eq_some (by decide) hp
      have hfrom := (keywordEdge_select hp).1.findsFrom_position? (k := .from) (by decide)
      rw [projection?_eq_map hp, Option.map_eq_none_iff, hfrom.none_iff]
      constructor
      · intro hnone
        exact Or.inr ⟨p, hleast, hnone⟩
      · rintro (hmissing | ⟨p', hleast', hnone⟩)
        · exact absurd hleast.1 (hmissing p)
        · rwa [hleast.unique hleast']

/-! ## Words -/

/-- The run is a word of the text: it goes on with word characters on neither side. -/
structure WordRun (s before run after : Text) : Prop where
  text : s = before ++ (run ++ after)
  ne_nil : run ≠ []
  inside : ∀ c ∈ run, isWordChar c = true
  left : ∀ d ∈ before.getLast?, isWordChar d = false
  right : nextIs isWordChar after = false

/-- A word of the text is a listed name in some letter case, and an argument list follows it. -/
def CallsListed (s : Text) : Prop :=
  ∃ before run after, WordRun s before run after ∧
    (∃ name ∈ aggregateNames, Spells name.toList run) ∧ CallFollows after

theorem isWordChar_eq (c : Char) :
    isWordChar c = (isNameChar c || wordRanges.any fun ranges => ranges.contains c) := rfl

theorem isWordChar_of_isNameCharAnyCase {c : Char} (hc : isNameCharAnyCase c = true) :
    isWordChar c = true := by
  simp only [isNameCharAnyCase, Bool.or_eq_true, beq_iff_eq] at hc
  rcases hc with (((hc | rfl) | rfl) | rfl) | rfl
  · rw [isWordChar_eq, hc, Bool.true_or]
  all_goals decide +kernel

theorem isWordChar_of_blank {c : Char} (hc : isBlank c = true) : isWordChar c = false := by
  have hapart : ∀ b ∈ blanks, ∀ ranges ∈ wordRanges, ∀ r ∈ ranges, b.2 < r.1 ∨ r.2 < b.1 := by
    decide +kernel
  have hname : isNameChar c = false := by
    have hclasses := isNameChar_or_decimal_of_blank hc
    simp only [isNameCharAnyCase, Bool.or_eq_false_iff] at hclasses
    exact hclasses.1.1.1.1.1.1
  rw [isWordChar_eq, hname, Bool.false_or, List.any_eq_false]
  intro ranges hranges hin
  obtain ⟨r, hr, hlow, hhigh⟩ := (Ranges.contains_iff ranges c).mp hin
  obtain ⟨b, hb, hlow', hhigh'⟩ := (Ranges.contains_iff blanks c).mp hc
  have hbr := hapart b hb ranges hranges r hr
  omega

theorem Spells.wordChars {name : Text} (hname : name ∈ aggregateWords) (h : Spells name run) :
    ∀ c ∈ run, isWordChar c = true := by
  intro c hc
  obtain ⟨w, hw, hsame⟩ := h.exists_sameLetter c hc
  obtain ⟨hplain, hascii⟩ := aggregateWords_plain name hname w hw
  exact isWordChar_of_isNameCharAnyCase (isNameCharAnyCase_of_sameLetter hplain hascii hsame)

theorem Spells.ne_nil {name : Text} (hname : name ∈ aggregateWords) (h : Spells name run) :
    run ≠ [] := by
  have hnames : [] ∉ aggregateWords := by decide
  rintro rfl
  rw [List.forall₂_nil_right_iff.mp h] at hname
  exact hnames hname

theorem CallFollows.nextIs_wordChar (h : CallFollows after) : nextIs isWordChar after = false := by
  obtain ⟨gap, args, rfl, hgap⟩ := h
  cases gap with
  | nil =>
      rw [List.nil_append, nextIs_cons]
      decide +kernel
  | cons c gap => exact isWordChar_of_blank (hgap c (by simp))

/-- What spells a word has the keys of its letters. -/
theorem Spells.map_letterKey {word : Text} (hword : Ascii word) (h : Spells word run) :
    run.map letterKey = word.map smallForm := by
  induction h with
  | nil => rfl
  | cons hc _ ih =>
      have hrest := ih fun d hd => hword d (by simp [hd])
      rw [List.map_cons, List.map_cons, hrest, (sameLetter_iff (hword _ (by simp)) _).mp hc]

/-- No word is two of the listed names, in whatever letter case. -/
theorem eq_of_spells {a b : String} (ha : a ∈ aggregateNames) (hb : b ∈ aggregateNames)
    (hra : Spells a.toList run) (hrb : Spells b.toList run) : a = b := by
  have hkeys : ∀ a ∈ aggregateNames, ∀ b ∈ aggregateNames,
      a.toList.map smallForm = b.toList.map smallForm → a = b := by decide +kernel
  apply hkeys a ha b hb
  calc a.toList.map smallForm
      = run.map letterKey := (hra.map_letterKey (aggregateWords_ascii (List.mem_map_of_mem ha))).symm
    _ = b.toList.map smallForm := hrb.map_letterKey (aggregateWords_ascii (List.mem_map_of_mem hb))

/-! ## The search -/

theorem startsCall_iff (s name : Text) :
    startsCall s name = true ↔ ∃ run after, s = run ++ after ∧ Spells name run ∧ CallFollows after := by
  rw [startsCall]
  constructor
  · intro hcall
    split at hcall
    · next after hread =>
        obtain ⟨run, rfl, hrun⟩ := readWord_eq_some_iff.mp hread
        exact ⟨run, after, rfl, hrun, (continuesCall_iff after).mp hcall⟩
    · cases hcall
  · rintro ⟨run, after, rfl, hrun, hcall⟩
    rw [readWord_eq_some_iff.mpr ⟨run, rfl, hrun⟩]
    exact (continuesCall_iff after).mpr hcall

/-- The name in front of an argument list is all the word characters that the text starts with. -/
theorem Spells.eq_takeWhile {name : Text} (hname : name ∈ aggregateWords) (hrun : Spells name run)
    (hcall : CallFollows after) : run = (run ++ after).takeWhile isWordChar := by
  have hafter : after.takeWhile isWordChar = [] := by
    have hnext := hcall.nextIs_wordChar
    cases after with
    | nil => rfl
    | cons c after => exact List.takeWhile_cons_of_neg (by simpa using hnext)
  rw [List.takeWhile_append_of_pos (hrun.wordChars hname), hafter, List.append_nil]

/-- A text starts with a call of one listed name at most, although some of them begin others. -/
theorem eq_of_startsCall {a b : String} (ha : a ∈ aggregateNames) (hb : b ∈ aggregateNames)
    (hca : startsCall s a.toList = true) (hcb : startsCall s b.toList = true) : a = b := by
  obtain ⟨run, after, rfl, hrun, hcall⟩ := (startsCall_iff s a.toList).mp hca
  obtain ⟨run', after', hsplit, hrun', hcall'⟩ := (startsCall_iff _ b.toList).mp hcb
  have hsame : run = run' := by
    rw [hrun.eq_takeWhile (List.mem_map_of_mem ha) hcall, hsplit,
      ← hrun'.eq_takeWhile (List.mem_map_of_mem hb) hcall']
  apply eq_of_spells ha hb hrun
  rwa [hsame]

theorem startsAggregate_iff (s : Text) :
    startsAggregate s = true ↔
      ∃ run after, s = run ++ after ∧ (∃ name ∈ aggregateNames, Spells name.toList run) ∧
        CallFollows after := by
  simp only [startsAggregate, List.any_eq_true, startsCall_iff]
  constructor
  · rintro ⟨name, hname, run, after, hs, hrun, hcall⟩
    exact ⟨run, after, hs, ⟨name, hname, hrun⟩, hcall⟩
  · rintro ⟨run, after, hs, ⟨name, hname, hrun⟩, hcall⟩
    exact ⟨name, hname, run, after, hs, hrun, hcall⟩

theorem nextIs_of_startsAggregate (h : startsAggregate s = true) : nextIs isWordChar s = true := by
  obtain ⟨run, after, rfl, ⟨name, hname, hrun⟩, -⟩ := (startsAggregate_iff s).mp h
  have hlisted : name.toList ∈ aggregateWords := List.mem_map_of_mem hname
  obtain ⟨c, run, rfl⟩ := List.exists_cons_of_ne_nil (hrun.ne_nil hlisted)
  exact hrun.wordChars hlisted c (by simp)

/-- The search finds a call exactly if one starts where no word character comes before it. -/
theorem callsAggregateFrom_iff :
    callsAggregateFrom inWord s = true ↔
      ∃ before rest, s = before ++ rest ∧ inWordAfter inWord before = false ∧
        startsAggregate rest = true := by
  induction s generalizing inWord with
  | nil =>
      apply iff_of_false
      · simp [callsAggregateFrom]
      · rintro ⟨before, rest, hnil, -, hstarts⟩
        obtain ⟨-, rfl⟩ := List.append_eq_nil_iff.mp hnil.symm
        exact absurd hstarts (by decide)
  | cons c s ih =>
      rw [callsAggregateFrom, Bool.or_eq_true, ih]
      constructor
      · rintro (hhere | ⟨before, rest, rfl, hbefore, hstarts⟩)
        · rw [Bool.and_eq_true, bne_iff_ne] at hhere
          have hc : isWordChar c = true := nextIs_of_startsAggregate hhere.2
          refine ⟨[], c :: s, rfl, ?_, hhere.2⟩
          rw [hc] at hhere
          exact Bool.eq_false_iff.mpr hhere.1
        · exact ⟨c :: before, rest, rfl, hbefore, hstarts⟩
      · rintro ⟨before, rest, hsplit, hbefore, hstarts⟩
        cases before with
        | nil =>
            obtain rfl : c :: s = rest := hsplit
            have hc : isWordChar c = true := nextIs_of_startsAggregate hstarts
            have hin : inWord = false := hbefore
            left
            rw [hc, hin, hstarts]
            rfl
        | cons d before =>
            obtain ⟨rfl, rfl⟩ := List.cons.inj hsplit
            exact Or.inr ⟨before, rest, rfl, hbefore, hstarts⟩

theorem inWordAfter_eq_false_iff (s : Text) :
    inWordAfter false s = false ↔ ∀ d ∈ s.getLast?, isWordChar d = false := by
  rcases List.eq_nil_or_concat s with rfl | ⟨s, d, rfl⟩
  · simp [inWordAfter]
  · simp [inWordAfter]

/-- An aggregate is called exactly where a whole word is a listed name in front of an argument
list. -/
theorem callsAggregate_iff (s : Text) : callsAggregate s = true ↔ CallsListed s := by
  rw [callsAggregate, callsAggregateFrom_iff]
  constructor
  · rintro ⟨before, rest, rfl, hbefore, hstarts⟩
    obtain ⟨run, after, rfl, ⟨name, hname, hrun⟩, hcall⟩ := (startsAggregate_iff rest).mp hstarts
    refine ⟨before, run, after, ⟨rfl, ?_, ?_, ?_, ?_⟩, ⟨name, hname, hrun⟩, hcall⟩
    · exact hrun.ne_nil (List.mem_map_of_mem hname)
    · exact hrun.wordChars (List.mem_map_of_mem hname)
    · exact (inWordAfter_eq_false_iff before).mp hbefore
    · exact hcall.nextIs_wordChar
  · rintro ⟨before, run, after, hword, hlisted, hcall⟩
    refine ⟨before, run ++ after, hword.text, ?_, ?_⟩
    · exact (inWordAfter_eq_false_iff before).mpr hword.left
    · exact (startsAggregate_iff _).mpr ⟨run, after, rfl, hlisted, hcall⟩

/-! ## Plain aggregates -/

/-- The projection is what stands between the first `SELECT` of the query and the first `FROM`
behind it. The query is a plain aggregate exactly when no `GROUP BY` stands in it and a word of its
projection is a listed name in front of an argument list. No text starts with calls of two of the
names. -/
theorem isPlainAggregate_iff (sql : Text) :
    (∀ t, projection? sql = some t ↔ IsProjection sql t) ∧
      (projection? sql = none ↔
        (∀ p, ¬ KeywordPlace isNameCharAnyCase .select sql p) ∨
          ∃ p, IsLeast {p | KeywordPlace isNameCharAnyCase .select sql p} p ∧
            ∀ q, p + 6 ≤ q → ¬ KeywordPlace isNameCharAnyCase .from sql q) ∧
      (isPlainAggregate sql = true ↔
        (∀ p, ¬ KeywordPlace isNameCharAnyCase Clause.group.keyword sql p) ∧
          ∃ t, IsProjection sql t ∧ CallsListed t) ∧
      ∀ s, ∀ a ∈ aggregateNames, ∀ b ∈ aggregateNames,
        startsCall s a.toList = true → startsCall s b.toList = true → a = b := by
  refine ⟨projection?_eq_some_iff sql, projection?_eq_none_iff sql, ?_, ?_⟩
  · have hgroup : hasClause .group sql = false ↔
        ∀ p, ¬ KeywordPlace isNameCharAnyCase Clause.group.keyword sql p := by
      rw [hasClause, Option.isSome_eq_false_iff, Option.isNone_iff_eq_none]
      exact position?_eq_none_iff_forall (by decide) sql
    rw [isPlainAggregate_eq, Bool.and_eq_true, Bool.not_eq_true', hgroup, Option.any_eq_true]
    simp only [projection?_eq_some_iff, callsAggregate_iff]
  · intro s a ha b hb hca hcb
    exact eq_of_startsCall ha hb hca hcb

end QuerySplice.Sql
