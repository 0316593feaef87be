import QuerySplice.Proofs.Statements

/-!
# What is left of a query without a clause

A removal keeps what stands in front of the clause. If another clause follows, the query goes on
with it. If none does, the blanks in front of the removed clause go as well, and only a limit leaves
something behind: the text behind its numbers, with one blank before it. In that text no clause is
found that was not found before, unless it stands right at its start.
-/

namespace QuerySplice.Sql

open Text

variable {s t u v w y rest gap gap' sql : Text} {c : Clause} {l : Landmark} {p q : Nat}

/-- The characters of a limit of rows. -/
def isLimitPart (c : Char) : Bool := isLetterAnyCase c || isBlank c || isDecimal c || c == ','

/-- What can be left when a clause `c` is removed from between `u` and what follows it in `v`. -/
inductive Remains (c : Clause) (u v : Text) : Text → Prop
  | followed {w : Text} {l : Landmark} (hl : l ∈ c.after) (hw : l.startsAt w = true) :
      Remains c u v (u ++ w)
  | ended (hv : firstPosition? c.followingKeywords v = none) : Remains c u v (trimEnd u)
  | behindLimit {y gap rest gap' : Text} (hv : firstPosition? c.followingKeywords v = none)
      (hsplit : v = y ++ (gap ++ (rest ++ gap'))) (hy : y ≠ [])
      (hpart : ∀ d ∈ y, isLimitPart d = true) (hg : Blank gap) (hrest : rest ≠ [])
      (hend : trimEnd rest = rest) (hg' : Blank gap') :
      Remains c u v (trimEnd u ++ ' ' :: rest)

theorem Clause.position?_trimTerminator (c : Clause) (sql : Text) :
    c.position? (trimTerminator sql) = c.position? sql := by
  rw [Clause.position?_eq_find?, Clause.position?_eq_find?, occurrences_trimTerminator]

/-- The clause that is found splits the query without its terminator. -/
theorem Clause.exists_trimTerminator_append (h : c.position? sql = some p) :
    ∃ u v, trimTerminator sql = u ++ v ∧ u.length = p ∧ (Scan.start.after u).Ready ∧
      (Landmark.clause c).startsAt v = true :=
  Clause.position?_eq_some ((c.position?_trimTerminator sql).trans h)

/-- A query goes on with the first clause that follows a removed one. -/
theorem remains_followed (hq : firstPosition? c.followingKeywords v = some q) (u : Text) :
    Remains c u v (u ++ v.drop q) := by
  obtain ⟨a, w, l, rfl, rfl, -, hl, hstarts⟩ := firstPosition?_eq_some hq
  rw [List.drop_left]
  exact .followed hl hstarts

/-- What is left without the order at the end of the first of two parts. -/
theorem removeOrder_of_split (h : Clause.order.position? sql = some u.length)
    (htrim : trimTerminator sql = u ++ v) :
    removeOrder sql =
      match firstPosition? Clause.order.followingKeywords v with
      | some q => u ++ v.drop q
      | none => trimEnd u := by
  rw [removeOrder, h, htrim]
  simp only [List.drop_left]
  cases firstPosition? Clause.order.followingKeywords v <;> simp only [List.take_left]

theorem remains_removeOrder (h : Clause.order.position? sql = some p) :
    ∃ u v, trimTerminator sql = u ++ v ∧ u.length = p ∧ (Scan.start.after u).Ready ∧
      (Landmark.clause .order).startsAt v = true ∧ Remains .order u v (removeOrder sql) := by
  obtain ⟨u, v, htrim, rfl, hu, hv⟩ := Clause.exists_trimTerminator_append h
  refine ⟨u, v, htrim, rfl, hu, hv, ?_⟩
  rw [removeOrder_of_split h htrim]
  cases hfirst : firstPosition? Clause.order.followingKeywords v with
  | some q => exact remains_followed hfirst u
  | none => exact .ended hfirst

/-- The characters of a limit change neither quotes nor parentheses nor comments, and end no
statement. -/
theorem classes_of_isLimitPart (hs : ∀ d ∈ s, isLimitPart d = true) :
    PlainText s ∧ Calm s ∧ ';' ∉ s :=
  ⟨.of_class isLimitPart (by decide) hs, .of_class isLimitPart (by decide) hs,
    fun hmem => absurd (hs ';' hmem) (by decide)⟩

theorem LimitNumbers.isLimitPart (h : LimitNumbers s) : ∀ d ∈ s, isLimitPart d = true := by
  have happend {s t : Text} (hs : ∀ d ∈ s, Sql.isLimitPart d = true)
      (ht : ∀ d ∈ t, Sql.isLimitPart d = true) : ∀ d ∈ s ++ t, Sql.isLimitPart d = true :=
    fun d hd => (List.mem_append.mp hd).elim (hs d) (ht d)
  have hblank {gap : Text} (hg : Blank gap) : ∀ d ∈ gap, Sql.isLimitPart d = true :=
    fun d hd => by simp [Sql.isLimitPart, hg d hd]
  have hdigits {digits : Text} (hd : Digits digits) : ∀ d ∈ digits, Sql.isLimitPart d = true :=
    fun d hmem => by simp [Sql.isLimitPart, hd.2 d hmem]
  obtain ⟨gap, digits, pair, offset, rfl, hg, hd, hpair, hoffset⟩ := h
  refine happend (hblank hg.2) (happend (hdigits hd) (happend ?_ ?_))
  · rcases hpair with rfl | ⟨gap, gap', digits, rfl, hg, hg', hd⟩
    · simp
    · have hcomma : ∀ d ∈ [','], Sql.isLimitPart d = true :=
        List.forall_mem_singleton.mpr (by decide)
      exact happend (hblank hg) (happend hcomma (happend (hblank hg') (hdigits hd)))
  · rcases hoffset with rfl | ⟨gap, word, gap', digits, rfl, hg, hword, hg', hd⟩
    · simp
    · have hletters : ∀ d ∈ word, Sql.isLimitPart d = true := fun d hmem => by
        simp [Sql.isLimitPart, hword.isLetter isWord_offset.2 d hmem]
      exact happend (hblank hg.2) (happend hletters (happend (hblank hg'.2) (hdigits hd)))

theorem exists_trim_append (s : Text) :
    ∃ gap gap', s = gap ++ (trim s ++ gap') ∧ Blank gap ∧ Blank gap' := by
  obtain ⟨gap, hgap, hg⟩ := exists_blank_append s
  obtain ⟨gap', hgap', hg'⟩ := exists_trimEnd_append (trimStart s)
  exact ⟨gap, gap', hgap.trans (congrArg (gap ++ ·) hgap'), hg, hg'⟩

/-- What is left without the limit at the end of the first of two parts. -/
theorem removeLimit_of_split (h : Clause.limit.position? sql = some u.length)
    (htrim : trimTerminator sql = u ++ v) :
    removeLimit sql =
      match firstPosition? Clause.limit.followingKeywords v with
      | some q => u ++ v.drop q
      | none =>
        match readLimit v with
        | none => trimEnd u
        | some tail => if (trim tail).isEmpty then trimEnd u else trimEnd u ++ ' ' :: trim tail := by
  rw [removeLimit, h, htrim]
  simp only [List.drop_left]
  cases firstPosition? Clause.limit.followingKeywords v with
  | some q => simp only [List.take_left]
  | none => cases readLimit v <;> simp only [List.take_left]

/-- A limit that is read is the word `LIMIT` and its numbers. -/
theorem readLimit_sound (h : readLimit s = some rest) :
    ∃ word numbers, s = word ++ (numbers ++ rest) ∧ Spells "LIMIT".toList word ∧
      LimitNumbers numbers := by
  obtain ⟨behind, hword, hnumbers⟩ := Option.bind_eq_some_iff.mp h
  obtain ⟨word, rfl, hw⟩ := readWord_eq_some_iff.mp hword
  obtain ⟨numbers, rfl, hn⟩ := readLimitNumbers_sound hnumbers
  exact ⟨word, numbers, rfl, hw, hn⟩

theorem remains_removeLimit (h : Clause.limit.position? sql = some p) :
    ∃ u v, trimTerminator sql = u ++ v ∧ u.length = p ∧ (Scan.start.after u).Ready ∧
      (Landmark.clause .limit).startsAt v = true ∧ Remains .limit u v (removeLimit sql) := by
  obtain ⟨u, v, htrim, rfl, hu, hv⟩ := Clause.exists_trimTerminator_append h
  refine ⟨u, v, htrim, rfl, hu, hv, ?_⟩
  rw [removeLimit_of_split h htrim]
  cases hfirst : firstPosition? Clause.limit.followingKeywords v with
  | some q => exact remains_followed hfirst u
  | none =>
      cases hread : readLimit v with
      | none => exact .ended hfirst
      | some tail =>
          by_cases hempty : (trim tail).isEmpty = true
          · simp only [hempty, if_true]
            exact .ended hfirst
          · obtain ⟨w, numbers, rfl, hw, hnum⟩ := readLimit_sound hread
            obtain ⟨gap, gap', htail, hg, hg'⟩ := exists_trim_append tail
            obtain ⟨d, w, rfl, -⟩ := hw.exists_cons (by decide)
            have hsplit : d :: w ++ (numbers ++ tail) =
                (d :: w ++ numbers) ++ (gap ++ (trim tail ++ gap')) := by
              rw [← htail, List.append_assoc]
            simp only [hempty, Bool.false_eq_true, if_false]
            have hrest : trim tail ≠ [] := by simpa using hempty
            have hend : trimEnd (trim tail) = trim tail := trimEnd_trimEnd (trimStart tail)
            refine .behindLimit hfirst hsplit (by simp) (fun e he => ?_) hg hrest hend hg'
            rcases List.mem_append.mp he with he | he
            · have hletter := hw.isLetter (show IsWord "LIMIT".toList by decide).2 e he
              simp [Sql.isLimitPart, hletter]
            · exact hnum.isLimitPart e he

/-! ## What is found in the rest -/

theorem Level.of_append_blank (h : Level (s ++ gap)) (hg : Blank gap) : Level s := by
  induction gap generalizing s with
  | nil => rwa [List.append_nil] at h
  | cons d gap ih =>
      rw [List.append_cons] at h
      obtain ⟨hout, hdepth⟩ := ih h fun e he => hg e (by simp [he])
      have hplain : PlainText [d] := .of_class isBlank (by decide) (by simp [hg d (by simp)])
      obtain ⟨hmark, hweight⟩ := hplain d (by simp)
      have hmarked := Scan.marked_after Scan.ready_start.marked s
      rw [Scan.after_append] at hout hdepth
      have houtside : (Scan.start.after s).isOutside = true := by
        by_contra hin
        have := Scan.isOutside_step hmarked hmark (Bool.eq_false_iff.mpr hin)
        exact absurd hout (by simp [this])
      refine ⟨houtside, ?_⟩
      have hread := Scan.outside_of_isOutside hmarked houtside hmark
      rwa [Scan.after_cons, Scan.after_nil, Scan.step_depth hread, hweight, Int.add_zero] at hdepth

/-- In the text behind a removed limit only its start can have become a place of a clause. -/
theorem le_length_of_mem_occurrences (hs : Level s) (hy : PlainText y) (hg : Blank gap)
    (hg' : Blank gap')
    (hv : firstPosition? c.followingKeywords (y ++ (gap ++ (rest ++ gap'))) = none)
    (hl : l ∈ c.after) (hq : (l, q) ∈ occurrences (s ++ ' ' :: rest)) : q ≤ s.length + 1 := by
  by_contra hlt
  obtain ⟨a, b, d, hsplit, rfl, htop, hmark⟩ := mem_placesFrom_iff.mp hq
  rw [List.append_cons] at hsplit
  rcases append_eq_append_cons hsplit with ⟨a', rfl, hrest⟩ | ⟨b', hin⟩
  · cases a' with
    | nil => simp at hlt
    | cons e a' =>
        obtain ⟨hmode, hdepth⟩ :=
          (hy.append hg.plainText).after (show Scan.start.mode = .plain from rfl)
        have hstart : Scan.start.after (s ++ [' ']) = Scan.start := by
          rw [Scan.after_append]
          exact hs.step_blank
        have hstep : (Scan.start.after (y ++ gap)).step e = Scan.start.step e :=
          Scan.step_congr hmode hdepth e
        have hmem : (l, (y ++ gap ++ e :: a').length) ∈
            occurrences (y ++ (gap ++ (rest ++ gap'))) := by
          refine mem_placesFrom_iff.mpr ⟨y ++ gap ++ e :: a', b ++ gap', d, ?_, rfl, ?_, ?_⟩
          · simp [hrest]
          · rw [Scan.after_append, hstart, Scan.after_cons] at htop
            rw [Scan.after_append, Scan.after_cons, hstep]
            exact htop
          · have hcut := wordMarks_landmarks.cut (hg'.alike (d :: b)) List.suffix_rfl (by simp)
            rw [List.append_nil] at hcut
            rw [← List.cons_append, hcut]
            exact hmark
        rw [firstPosition?_eq_find?, Option.map_eq_none_iff, List.find?_eq_none] at hv
        exact hv _ hmem (List.contains_iff_mem.mpr hl)
  · have := congrArg List.length hin
    simp at this hlt
    omega

/-! ## Landmarks of one word in front of another text -/

/-- A landmark that may follow an order is a clause of one word or the limit for each group. -/
theorem Landmark.cases_after_order (hl : l ∈ Clause.after .order) :
    l = .perGroup ∨ ∃ c : Clause, l = .clause c ∧ c.keyword.words = [l.word] := by
  have hall : ∀ l ∈ Clause.after .order, l = .perGroup ∨
      ∃ c ∈ Clause.all, l = .clause c ∧ c.keyword.words = [l.word] := by decide
  exact (hall l hl).imp_right fun ⟨c, _, h⟩ => ⟨c, h⟩

theorem startsLimitBy_iff (s : Text) :
    startsLimitBy s = true ↔
      ∃ w r, s = w ++ r ∧ Spells "LIMIT".toList w ∧ LimitByArguments isNameCharAnyCase r := by
  have hread : startsLimitBy s = (readWord "LIMIT".toList s).any continuesLimitBy := by
    rw [startsLimitBy]
    cases readWord "LIMIT".toList s <;> rfl
  simp only [hread, Option.any_eq_true, readWord_eq_some_iff, continuesLimitBy_iff]
  constructor
  · rintro ⟨r, ⟨w, rfl, hw⟩, hr⟩
    exact ⟨w, r, rfl, hw, hr⟩
  · rintro ⟨w, r, rfl, hw, hr⟩
    exact ⟨r, ⟨w, rfl, hw⟩, hr⟩

/-- What follows the word of such a landmark. -/
theorem Landmark.word_of_startsAt (hl : l ∈ Clause.after .order) (h : l.startsAt s = true) :
    ∃ w r, s = w ++ r ∧ Spells l.word w ∧
      nextIs (fun c => isNameCharAnyCase c || c == '.') r = false ∧
      (l = .clause .format ∨ l = .clause .settings → ¬ CallFollows r) := by
  rcases Landmark.cases_after_order hl with rfl | ⟨c, rfl, hwords⟩
  · obtain ⟨w, r, rfl, hw, hargs⟩ := (startsLimitBy_iff s).mp h
    obtain ⟨numbers, gap, word, rest, rfl, ⟨gap', digits, pair, offset, rfl, hg, -⟩, -⟩ := hargs
    refine ⟨w, _, rfl, hw, ?_, by rintro (h | h) <;> cases h⟩
    rw [List.append_assoc]
    refine hg.nextIs_append (fun d hd => ?_) _
    have := isNameChar_or_decimal_of_blank hd
    simp only [Bool.or_eq_false_iff] at this ⊢
    exact ⟨this.1.1, this.2⟩
  · obtain ⟨w, r, rfl, hw, hr, hcall, -⟩ := (startsAt_iff c.keyword_mem_locatable s).mp h
    rw [hwords] at hw
    cases hw with
    | last hw =>
        refine ⟨w, r, rfl, hw, hr, fun hc => hcall (hc.imp ?_ ?_)⟩ <;>
          exact fun heq => congrArg Clause.keyword (Landmark.clause.inj heq)
    | cons hne => exact absurd rfl hne

/-- Where the word of such a landmark stands, this or the other form of `LIMIT` does. -/
theorem Landmark.exists_startsAt_of_word {r : Text} (hl : l ∈ Clause.after .order)
    (hw : Spells l.word w) (hr : nextIs (fun c => isNameCharAnyCase c || c == '.') r = false)
    (hcall : l = .clause .format ∨ l = .clause .settings → ¬ CallFollows r) :
    ∃ l' : Landmark, l'.word = l.word ∧ l'.startsAt (w ++ r) = true := by
  by_cases hargs : l.word = "LIMIT".toList ∧ LimitByArguments isNameCharAnyCase r
  · rw [hargs.1] at hw ⊢
    exact ⟨.perGroup, rfl, (startsLimitBy_iff _).mpr ⟨w, r, rfl, hw, hargs.2⟩⟩
  · have hclause : ∀ l ∈ Clause.after .order, ∃ c ∈ Clause.all, c.keyword.words = [l.word] ∧
        (c.keyword = Clause.format.keyword → l = .clause .format) ∧
        (c.keyword = Clause.settings.keyword → l = .clause .settings) ∧
        (c.keyword = Clause.limit.keyword → l.word = "LIMIT".toList) := by decide
    obtain ⟨c, -, hwords, hformat, hsettings, hlimit⟩ := hclause l hl
    have hspells : SpellsWords c.keyword.words w := by
      rw [hwords]
      exact .last hw
    have hword : (Landmark.clause c).word = l.word := by rw [Landmark.word, hwords, List.headD_cons]
    exact ⟨.clause c, hword, (startsAt_iff c.keyword_mem_locatable _).mpr ⟨w, r, rfl, hspells, hr,
      fun hc => hcall (hc.imp hformat hsettings), fun hc hby => hargs ⟨hlimit hc, hby⟩⟩⟩

end QuerySplice.Sql
