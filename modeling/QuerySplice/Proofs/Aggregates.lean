import QuerySplice.Proofs.Injections
import QuerySplice.Proofs.Projections

/-!
# Plain aggregates under insertions

Aggregate calls are looked for in the text of a projection without regard to quotes. A landmark goes
on with the name of no aggregate and with no argument list, so no call reaches over the place where
a clause is inserted, and a limit calls nothing itself.
-/

namespace QuerySplice.Sql

open Text

variable {s t t' u v b : Text} {n : Int}

def aggregateWords : List Text := aggregateNames.map String.toList

theorem aggregateWords_plain :
    ∀ word ∈ aggregateWords, ∀ c ∈ word, isNameChar c = true ∧ c.toNat < 128 := by
  have hall : (aggregateWords.all fun word =>
      word.all fun c => isNameChar c && decide (c.toNat < 128)) = true := by decide
  simpa only [List.all_eq_true, Bool.and_eq_true, decide_eq_true_eq] using hall

theorem aggregateWords_ascii {word : Text} (h : word ∈ aggregateWords) : Ascii word := fun c hc =>
  (aggregateWords_plain word h c hc).2

/-! ## Calls in two texts -/

theorem startsAggregate_eq (s : Text) :
    startsAggregate s = aggregateWords.any fun word => startsCall s word := by
  rw [startsAggregate, aggregateWords, List.any_map]
  rfl

theorem startsAggregate_eq_false (h : ∀ word ∈ aggregateWords, readWord word s = none) :
    startsAggregate s = false := by
  rw [startsAggregate_eq, List.any_eq_false]
  intro word hword hstarts
  rw [startsCall, h word hword] at hstarts
  cases hstarts

/-- No aggregate is called where a clause behind the limit begins, wherever the text is cut off. -/
theorem startsAggregate_of_startsAt {l : Landmark} (hl : l ∈ Clause.limit.after)
    (h : l.startsAt (s ++ t) = true) : startsAggregate s = false := by
  have hdiffer : ∀ l ∈ Clause.limit.after, ∀ word ∈ aggregateWords, differ l.word word = true := by
    decide
  refine startsAggregate_eq_false fun word hword => ?_
  cases hread : readWord word s with
  | none => rfl
  | some r =>
      obtain ⟨x, rfl, hx⟩ := readWord_eq_some_iff.mp hread
      obtain ⟨rest, hhead⟩ := Option.ne_none_iff_exists'.mp (Landmark.readWord_of_startsAt h)
      obtain ⟨w, htext, hw⟩ := readWord_eq_some_iff.mp hhead
      have hwhole : readWord word (w ++ rest) = some (r ++ t) :=
        readWord_eq_some_iff.mpr ⟨x, by rw [← htext, List.append_assoc], hx⟩
      have hnone := readWord_eq_none_of_differ l.isWord_word.ascii (aggregateWords_ascii hword)
        (hdiffer l hl word hword) hw rest
      rw [hnone] at hwhole
      cases hwhole

theorem startsAggregate_append (h : Behind aggregateWords s t) (hb : b <:+ s) (hne : b ≠ []) :
    startsAggregate (b ++ t) = startsAggregate b := by
  rw [startsAggregate_eq, startsAggregate_eq, Bool.eq_iff_iff, List.any_eq_true, List.any_eq_true]
  have hcall {word : Text} (hword : word ∈ aggregateWords) :
      startsCall (b ++ t) word = startsCall b word := by
    rw [startsCall, startsCall, localAt_readWord h hword hb hne]
    cases readWord word b with
    | none => rfl
    | some r => exact continuesCall_append h r
  constructor
  · rintro ⟨word, hword, hstarts⟩
    exact ⟨word, hword, by rwa [← hcall hword]⟩
  · rintro ⟨word, hword, hstarts⟩
    exact ⟨word, hword, by rwa [hcall hword]⟩

/-- Whether a word character comes before what follows `s`. -/
def inWordAfter (inWord : Bool) (s : Text) : Bool := s.foldl (fun _ c => isWordChar c) inWord

theorem callsAggregateFrom_append
    (h : ∀ b, b <:+ s → b ≠ [] → startsAggregate (b ++ t) = startsAggregate b) (inWord : Bool) :
    callsAggregateFrom inWord (s ++ t) =
      (callsAggregateFrom inWord s || callsAggregateFrom (inWordAfter inWord s) t) := by
  induction s generalizing inWord with
  | nil => rfl
  | cons c s ih =>
      have hhere : startsAggregate (c :: (s ++ t)) = startsAggregate (c :: s) :=
        h (c :: s) List.suffix_rfl (by simp)
      have hlater := ih (fun b hb => h b (hb.trans (List.suffix_cons c s))) (isWordChar c)
      rw [List.cons_append, callsAggregateFrom, callsAggregateFrom, hhere, hlater, Bool.or_assoc]
      rfl

/-- Where no call starts, it does not matter what comes before. -/
theorem callsAggregateFrom_of_not_starts (h : startsAggregate t = false) (inWord : Bool) :
    callsAggregateFrom inWord t = callsAggregateFrom false t := by
  cases t with
  | nil => rfl
  | cons c t => simp only [callsAggregateFrom, h, Bool.and_false, Bool.false_or]

/-- A text in which no call starts is passed over. -/
theorem callsAggregateFrom_pass
    (h : ∀ b, b <:+ s → b ≠ [] → startsAggregate (b ++ t) = false) (inWord : Bool) :
    callsAggregateFrom inWord (s ++ t) = callsAggregateFrom (inWordAfter inWord s) t := by
  induction s generalizing inWord with
  | nil => rfl
  | cons c s ih =>
      have hhere : startsAggregate (c :: (s ++ t)) = false := h (c :: s) List.suffix_rfl (by simp)
      have hlater := ih (fun b hb => h b (hb.trans (List.suffix_cons c s))) (isWordChar c)
      rw [List.cons_append, callsAggregateFrom, hhere, Bool.and_false, Bool.false_or, hlater]
      rfl

/-! ## A limit calls nothing -/

theorem startsAggregate_of_not_letter (hs : nextIs isLetterAnyCase s = false) :
    startsAggregate s = false := by
  have hletters : ∀ word ∈ aggregateWords, (word.headD '0').isAlpha = true := by decide
  refine startsAggregate_eq_false fun word hword => ?_
  have hfirst := hletters word hword
  cases word with
  | nil => exact absurd hfirst (by decide)
  | cons w word =>
      cases s with
      | nil => rfl
      | cons c s =>
          have hc : sameLetter w c = false := sameLetter_eq_false hfirst hs
          simp [readWord, hc]

theorem nextIs_of_suffix {inClass : Char → Bool} (hs : s.any inClass = false) (hb : b <:+ s)
    (hne : b ≠ []) (t : Text) : nextIs inClass (b ++ t) = false := by
  cases b with
  | nil => exact absurd rfl hne
  | cons c b =>
      have hc := List.any_eq_false.mp hs c (hb.subset (by simp))
      exact Bool.eq_false_iff.mpr hc

theorem callsAggregateFrom_limitClause (hn : 0 < n) (inWord : Bool) (ht : startsAggregate t = false) :
    callsAggregateFrom inWord (limitClause n ++ ' ' :: t) = callsAggregateFrom false t := by
  have hforeign : ∀ a ∈ "LIMIT".toList.tails, a ≠ [] → ∀ word ∈ aggregateWords,
      differ a word = true := by decide
  have hword : ∀ b, b <:+ "LIMIT".toList → b ≠ [] → ∀ t, startsAggregate (b ++ t) = false := by
    intro b hb hne t
    refine startsAggregate_eq_false fun word hword => ?_
    have hascii : Ascii b := fun c hc => toNat_lt_of_isAlpha
      ((show IsWord "LIMIT".toList by decide).2 c (hb.subset hc))
    exact readWord_eq_none_of_differ hascii (aggregateWords_ascii hword)
      (hforeign b ((List.mem_tails _ _).mpr hb) hne word hword) (spells_self b) t
  have hdigits : (' ' :: ((Limit.whole n).text ++ [' '])).any isLetterAnyCase = false := by
    rw [List.any_eq_false]
    intro c hc
    rcases List.mem_cons.mp hc with rfl | hc
    · decide
    · rcases List.mem_append.mp hc with hc | hc
      · simp [(classes_of_isDigit (isDigit_of_mem_limitText hn hc)).2.1]
      · obtain rfl := List.mem_singleton.mp hc
        decide
  have hsplit : limitClause n ++ ' ' :: t =
      "LIMIT".toList ++ ((' ' :: ((Limit.whole n).text ++ [' '])) ++ t) := by
    rw [limitClause_eq]
    simp
  rw [hsplit, callsAggregateFrom_pass (fun b hb hne => hword b hb hne _),
    callsAggregateFrom_pass fun b hb hne =>
      startsAggregate_of_not_letter (nextIs_of_suffix hdigits hb hne t)]
  exact callsAggregateFrom_of_not_starts ht _

/-- A limit in front of a clause that comes after it changes no call. -/
theorem callsAggregate_limitClause {l : Landmark} (hn : 0 < n)
    (hs : ∀ d ∈ s.getLast?, isNameChar d = false) (hl : l ∈ Clause.limit.after)
    (h : l.startsAt (t ++ t') = true) :
    callsAggregate (s ++ (limitClause n ++ ' ' :: t)) = callsAggregate (s ++ t) := by
  have hapart : ∀ word ∈ aggregateWords, ApartFromLandmarks word := by decide
  have hstarts := startsAggregate_of_startsAt hl h
  have hold : Behind aggregateWords s t :=
    ((Landmark.headed h).behind hs aggregateWords_plain hapart).of_append
  have hnew : Behind aggregateWords s (limitClause n ++ ' ' :: t) :=
    ((Landmark.headed (limitClause_startsAt (.whole n))).append _).behind hs aggregateWords_plain
      hapart
  rw [callsAggregate, callsAggregate,
    callsAggregateFrom_append fun _ hb hne => startsAggregate_append hnew hb hne,
    callsAggregateFrom_append fun _ hb hne => startsAggregate_append hold hb hne,
    callsAggregateFrom_limitClause hn _ hstarts,
    callsAggregateFrom_of_not_starts hstarts (inWordAfter false s)]

/-! ## Plain aggregates -/

theorem isPlainAggregate_eq (sql : Text) :
    isPlainAggregate sql = (!hasClause .group sql && (projection? sql).any callsAggregate) := by
  rw [isPlainAggregate, hasClause, Option.not_isSome]
  cases projection? sql <;> rfl

theorem isPlainAggregate_trimTerminator (sql : Text) :
    isPlainAggregate (trimTerminator sql) = isPlainAggregate sql := by
  obtain ⟨tail, hsql, htail⟩ := exists_append_terminator sql
  have hprojection : projection? sql = projection? (trimTerminator sql) := by
    conv_lhs => rw [hsql]
    exact projection?_append (htail.places_append wordMarks_bounds _)
  rw [isPlainAggregate_eq, isPlainAggregate_eq, hasClause_trimTerminator, hprojection]

/-- Neither keyword of a projection stands in a limit. -/
theorem places_bounds_limitClause (hn : 0 < n) : places bounds (limitClause n) = [] := by
  have hletters : (Limit.whole n).text.any isLetterAnyCase = false := by
    rw [List.any_eq_false]
    intro c hc
    simp [(classes_of_isDigit (isDigit_of_mem_limitText hn hc)).2.1]
  rw [limitClause_eq, wordMarks_bounds.places_foreign_append (by decide) (by decide)
    (spells_self "LIMIT".toList) (nextIs_letter_blank _), wordMarks_bounds.places_blank_cons,
    wordMarks_bounds.places_of_not_letters hletters]
  rfl

/-- A limit behind a level query changes nothing about its projection. -/
theorem isPlainAggregate_append (hn : 0 < n) (hs : Level s) :
    isPlainAggregate (s ++ ' ' :: limitClause n) = isPlainAggregate s := by
  have hlimit := introduces_limitClause hn
  have hplaces : places bounds (s ++ ' ' :: limitClause n) = places bounds s := by
    rw [wordMarks_bounds.places_seam hs hlimit.headed.fresh, places_bounds_limitClause hn, shift_nil,
      List.append_nil]
  rw [isPlainAggregate_eq, isPlainAggregate_eq, hlimit.hasClause_append hs (by decide),
    projection?_append hplaces]

/-- A limit in front of a clause that comes after it leaves a plain aggregate one. -/
theorem isPlainAggregate_insert {l : Landmark} (hn : 0 < n) (hu : (Scan.start.after u).Ready)
    (hl : l ∈ Clause.limit.after) (hv : l.startsAt v = true) :
    isPlainAggregate (u ++ (limitClause n ++ ' ' :: v)) = isPlainAggregate (u ++ v) := by
  have hlimit := introduces_limitClause hn
  have hheaded := Landmark.headed hv
  obtain ⟨before, behind, rfl, hold, hnew⟩ :=
    wordMarks_bounds.places_insert hu hlimit.level hlimit.headed hheaded
  have hbehind : Behind vocabulary u v :=
    (alike_of_headed hu.not_isNameChar hheaded hheaded).left
  have hsplit : limitClause n ++ ' ' :: v = (limitClause n ++ [' ']) ++ v := by simp
  have hprojection := projection?_insert (y := limitClause n ++ [' '])
    (fun p hp => select_le_length hbehind hp) (fun q hq => lt_length_of_mem_placesFrom hq) hold
    (by
      rw [← hsplit]
      rw [hnew, places_bounds_limitClause hn]
      simp [shift_shift, Nat.add_comm])
  rw [← hsplit] at hprojection
  rw [isPlainAggregate_eq, isPlainAggregate_eq, hlimit.hasClause_insert hu hheaded (by decide)]
  rcases hprojection with heq | ⟨b, q, hb, hold, hnew⟩
  · rw [heq]
  · have hlast : ∀ d ∈ b.getLast?, isNameChar d = false := by
      intro d hd
      have hne : b ≠ [] := by
        rintro rfl
        cases hd
      exact hu.not_isNameChar d (by rwa [getLast?_of_suffix hb hne])
    have hcut : l.startsAt (v.take q ++ v.drop q) = true := by rwa [List.take_append_drop]
    have hcalls := callsAggregate_limitClause hn hlast hl hcut
    rw [hold, hnew, Option.any_some, Option.any_some, ← hcalls]
    simp

end QuerySplice.Sql
