import QuerySplice.Proofs.Records
import QuerySplice.Sql.Direction

/-!
# Segments that edits write

An edit writes a `WHERE` with one condition, puts a condition in front of the predicate of a
`WHERE`, or writes an order or a limit. Each of these is a segment again when what it is made of is
a fragment, a column whose name has no backslash, or a positive number. The predicate of a `WHERE`
is what follows its word; it has no landmarks itself, and neither does a predicate that has been
put in parentheses.
-/

namespace QuerySplice.Sql

open Text

variable {s t : Text}

/-- The name of a column that can be written in a query. -/
structure Column where
  name : Text
  nonempty : name ≠ []
  plain : '\\' ∉ name

theorem EndsClean.append (hs : EndsClean s) (ht : EndsClean t) : EndsClean (s ++ t) := by
  by_cases hnil : t = []
  · rwa [hnil, List.append_nil]
  · exact (endsClean_append_iff hnil s).mpr ht

theorem EndsClean.of_append (h : EndsClean (s ++ t)) : EndsClean t := by
  by_cases hnil : t = []
  · rw [hnil]
    intro c hc
    cases hc
  · exact (endsClean_append_iff hnil s).mp h

/-! ## The word of a segment -/

theorem foreign_and : foreign landmarkWords "AND".toList = true := by decide

theorem foreign_by : foreign landmarkWords "BY".toList = true := by decide

theorem spells_self (word : Text) : Spells word word :=
  List.forall₂_same.mpr fun c _ => sameLetter_self c

theorem filter_startsAt_iff (s : Text) :
    (Landmark.clause .filter).startsAt s = true ↔
      ∃ word rest, s = word ++ rest ∧ Spells "WHERE".toList word ∧
        nextIs (fun c => isNameCharAnyCase c || c == '.') rest = false := by
  rw [Landmark.startsAt, startsAt_iff (by decide)]
  constructor
  · rintro ⟨words, rest, rfl, hw, hrest, -, -⟩
    cases hw with
    | last hs => exact ⟨words, rest, rfl, hs, hrest⟩
    | cons hne => exact absurd rfl hne
  · rintro ⟨word, rest, rfl, hs, hrest⟩
    exact ⟨word, rest, rfl, .last hs, hrest, fun h => absurd h (by decide),
      fun h => absurd h (by decide)⟩

/-- The word of a filter is all that its keyword takes. -/
theorem length_filter {word : Text} (hs : Spells "WHERE".toList word)
    (ht : nextIs (fun c => isNameCharAnyCase c || c == '.') t = false) :
    Clause.filter.keyword.length (word ++ t) = word.length := by
  have hread : readWord "WHERE".toList (word ++ t) = some t :=
    readWord_eq_some_iff.mpr ⟨word, rfl, hs⟩
  obtain ⟨rest, hrest, hrefused⟩ := Keyword.rest?_of_startsAt
    ((filter_startsAt_iff _).mpr ⟨word, t, rfl, hs, ht⟩)
  obtain rfl : t = rest := Option.some.inj (hread.symm.trans hrest)
  have hkeyword : Clause.filter.keyword.rest? (word ++ t) = some t := by
    rw [Keyword.rest?, hrest, Option.filter_some, hrefused]
    rfl
  rw [Keyword.length, hkeyword]
  simp

theorem nextIs_name_blank (s : Text) :
    nextIs (fun c => isNameCharAnyCase c || c == '.') (' ' :: s) = false :=
  show (isNameCharAnyCase ' ' || ' ' == '.') = false by decide

theorem nextIs_letter_blank (s : Text) : nextIs isLetterAnyCase (' ' :: s) = false :=
  show isLetterAnyCase ' ' = false by decide

theorem nextIs_letter_of_name (hs : nextIs (fun c => isNameCharAnyCase c || c == '.') s = false) :
    nextIs isLetterAnyCase s = false := by
  cases s with
  | nil => rfl
  | cons c s =>
      simp only [nextIs_cons, isNameCharAnyCase, isNameChar, Char.isAlphanum, Bool.or_eq_false_iff]
        at hs
      simp only [nextIs_cons, isLetterAnyCase, hs, Bool.or_false]

/-- The landmarks of a text that starts with one whose word no landmark has a proper end of. -/
theorem occurrences_of_startsAt {l : Landmark} {w : Text}
    (hf : foreign landmarkWords l.word.tail = true) (hs : Spells l.word w)
    (hl : l.startsAt (w ++ t) = true) (ht : nextIs isLetterAnyCase t = false) :
    occurrences (w ++ t) = (l, 0) :: shift w.length (occurrences t) := by
  have hplaces := wordMarks_landmarks.places_word_append l.isWord_word hf hs ht
  rw [landmarks_eq_singleton hl] at hplaces
  exact hplaces

theorem occurrences_filter {word : Text} (hs : Spells "WHERE".toList word)
    (ht : nextIs (fun c => isNameCharAnyCase c || c == '.') t = false) :
    occurrences (word ++ t) = (.clause .filter, 0) :: shift word.length (occurrences t) :=
  occurrences_of_startsAt (by decide) hs ((filter_startsAt_iff _).mpr ⟨word, t, rfl, hs, ht⟩)
    (nextIs_letter_of_name ht)

/-! ## The predicate of a filter -/

namespace Segment

/-- The word of a filter as it is spelled. -/
def spelling (f : Segment (.clause .filter)) : Text := f.text.take 5

/-- What follows the word of a filter. -/
def predicate (f : Segment (.clause .filter)) : Text := f.text.drop 5

variable (f : Segment (.clause .filter))

theorem spelling_append_predicate : f.spelling ++ f.predicate = f.text :=
  List.take_append_drop 5 f.text

theorem spells_spelling :
    Spells "WHERE".toList f.spelling ∧
      nextIs (fun c => isNameCharAnyCase c || c == '.') f.predicate = false := by
  obtain ⟨word, rest, htext, hs, hrest⟩ := (filter_startsAt_iff f.text).mp f.startsAt
  have hlength : word.length = 5 := hs.length_eq
  have hword : f.spelling = word := by
    rw [spelling, htext, ← hlength, List.take_left]
  have hpredicate : f.predicate = rest := by
    rw [predicate, htext, ← hlength, List.drop_left]
  rw [hword, hpredicate]
  exact ⟨hs, hrest⟩

theorem length_spelling : f.spelling.length = 5 := f.spells_spelling.1.length_eq

theorem plainText_spelling : PlainText f.spelling := f.spells_spelling.1.plainText (by decide)

theorem closed_predicate : Closed f.predicate := by
  have hclosed := f.closed
  rw [← f.spelling_append_predicate] at hclosed
  exact (closed_append_iff_of_plainText f.plainText_spelling _).mp hclosed

theorem occurrences_predicate : occurrences f.predicate = [] := by
  obtain ⟨hs, hrest⟩ := f.spells_spelling
  have hmarked := f.marked
  rw [← f.spelling_append_predicate, occurrences_filter hs hrest] at hmarked
  exact shift_eq_nil_iff.mp (List.cons.inj hmarked).2

theorem endsClean_predicate : EndsClean f.predicate := by
  have hclean := f.clean
  rw [← f.spelling_append_predicate] at hclean
  exact hclean.of_append

end Segment

/-! ## Conditions -/

/-- A predicate behind an `AND`: in parentheses if it has a top-level `OR`, and as it is
otherwise. -/
def conjunct (predicate : Text) : Text :=
  if (Keyword.or.position? predicate).isNone then "AND".toList ++ predicate
  else "AND".toList ++ ' ' :: '(' :: (trim predicate ++ [')'])

theorem fresh_conjunct (predicate : Text) : Fresh (conjunct predicate) := by
  unfold conjunct
  split
  all_goals exact fresh_of_spells (by decide) (by decide) (by decide) (spells_self _) _

theorem EndsClean.trim_eq (hs : EndsClean s) : trim s = trimStart s :=
  (endsClean_trimStart hs).trimEnd_eq

theorem closed_conjunct (hclosed : Closed s) (hclean : EndsClean s) : Closed (conjunct s) := by
  have hand : PlainText "AND".toList := by decide
  unfold conjunct
  split
  · exact (closed_append_iff_of_plainText hand s).mpr hclosed
  · rw [hclean.trim_eq]
    exact hand.closed.append ((closed_trimStart_iff s).mpr hclosed).parenthesised

theorem endsClean_conjunct (hclean : EndsClean s) : EndsClean (conjunct s) := by
  unfold conjunct
  split
  · exact EndsClean.append (by decide) hclean
  · have hend : EndsClean [')'] := by decide
    have hparens := (endsClean_append_iff (by simp) ("AND (".toList ++ trim s)).mpr hend
    simpa using hparens

/-- Where nothing of these marks stands in the predicate, nothing stands behind the `AND`. -/
theorem WordMarks.places_conjunct {α : Type} {words : List Text} {marks : Text → List α}
    (hm : WordMarks words marks) (hf : foreign words "AND".toList = true) (hclosed : Closed s)
    (hclean : EndsClean s) (hs : nextIs isLetterAnyCase s = false)
    (hquiet : (Keyword.or.position? s).isNone = true → places marks s = []) :
    places marks (conjunct s) = [] := by
  unfold conjunct
  split
  · next h =>
      rw [hm.places_foreign_append (by decide) hf (spells_self _) hs, hquiet h]
      rfl
  · have hparens : places marks ('(' :: (trimStart s ++ [')'])) = [] :=
      placesFrom_eq_nil_of_covers (covers_parenthesised ((closed_trimStart_iff s).mpr hclosed))
    rw [hclean.trim_eq, hm.places_foreign_append (by decide) hf (spells_self _)
      (nextIs_letter_blank _), hm.places_blank_cons, hparens]
    rfl

namespace Segment

/-- A filter with one condition. -/
def filter (condition : Fragment) : Segment (.clause .filter) where
  text := "WHERE".toList ++ ' ' :: condition.text
  closed := Closed.append (PlainText.closed (by decide)) condition.closed
  marked := by
    rw [occurrences_filter (spells_self _) (nextIs_name_blank _), occurrences,
      wordMarks_landmarks.places_blank_cons, show places landmarks condition.text = [] from
        condition.quiet]
    rfl
  clean := by
    have hne : ' ' :: condition.text ≠ [] := by simp
    rw [endsClean_append_iff hne, ← List.singleton_append, endsClean_append_iff condition.nonempty]
    exact condition.clean
  rowLimit h := by cases h

/-- The filter with another condition in front of its predicate. -/
def conjoin (f : Segment (.clause .filter)) (condition : Fragment) : Segment (.clause .filter) where
  text := f.spelling ++ ' ' :: (condition.text ++ ' ' :: conjunct f.predicate)
  closed := by
    have hconjunct := closed_conjunct f.closed_predicate f.endsClean_predicate
    exact f.plainText_spelling.closed.append (condition.closed.append hconjunct)
  marked := by
    obtain ⟨hs, hrest⟩ := f.spells_spelling
    have hconjunct : places landmarks (conjunct f.predicate) = [] :=
      wordMarks_landmarks.places_conjunct foreign_and f.closed_predicate
        f.endsClean_predicate (nextIs_letter_of_name hrest) fun _ => f.occurrences_predicate
    rw [occurrences_filter hs (nextIs_name_blank _), occurrences,
      wordMarks_landmarks.places_blank_cons,
      wordMarks_landmarks.places_seam condition.closed.level (fresh_conjunct _), hconjunct,
      show places landmarks condition.text = [] from condition.quiet]
    rfl
  clean := by
    have hconjunct : EndsClean (f.spelling ++ ' ' :: (condition.text ++ [' ']) ++
        conjunct f.predicate) := by
      have hne : conjunct f.predicate ≠ [] := by
        unfold conjunct
        split <;> simp
      exact (endsClean_append_iff hne _).mpr (endsClean_conjunct f.endsClean_predicate)
    simpa using hconjunct
  rowLimit h := by cases h

end Segment

/-! ## Orders and limits -/

/-- The word of an order. -/
def Order.fragment (order : Order) : Fragment where
  text := order.text
  nonempty := by cases order <;> decide
  closed := by cases order <;> decide
  quiet := by cases order <;> decide
  clean := by cases order <;> decide

theorem orderClause_eq (column direction : Text) :
    orderClause column direction =
      "ORDER".toList ++ ' ' :: ("BY".toList ++ ' ' :: (quoteName column ++ ' ' :: direction)) := by
  have hwords : "ORDER BY ".toList = "ORDER".toList ++ ' ' :: ("BY".toList ++ [' ']) := by decide
  calc
    orderClause column direction
        = "ORDER BY ".toList ++ quoteName column ++ ' ' :: direction := rfl
    _ = _ := by
      rw [hwords]
      simp only [List.append_assoc, List.cons_append, List.nil_append]

theorem order_startsAt (t : Text) :
    (Landmark.clause .order).startsAt ("ORDER".toList ++ ' ' :: ("BY".toList ++ ' ' :: t)) =
      true := by
  rw [Landmark.startsAt, startsAt_iff (by decide)]
  refine ⟨"ORDER BY".toList, ' ' :: t, by simp, ?_, nextIs_name_blank t,
    fun h => absurd h (by decide), fun h => absurd h (by decide)⟩
  exact .cons (by simp) (spells_self "ORDER".toList) gap_singleton
    (.last (spells_self "BY".toList))

section Orders

variable {column : Text} (hplain : '\\' ∉ column) (direction : Fragment)

include hplain

theorem closed_orderClause : Closed (orderClause column direction.text) := by
  have hcolumn : Closed (quoteName column ++ ' ' :: direction.text) :=
    (closed_quotedWith rfl hplain).append direction.closed
  rw [orderClause_eq]
  exact Closed.append (PlainText.closed (by decide))
    (Closed.append (PlainText.closed (by decide)) hcolumn)

/-- An order is the only landmark of its clause, whatever its column is called. -/
theorem occurrences_orderClause :
    occurrences (orderClause column direction.text) = [(.clause .order, 0)] := by
  have hquiet : places landmarks (quoteName column ++ ' ' :: direction.text) = [] := by
    rw [quoteName, wordMarks_landmarks.places_quotedWith_append rfl hplain,
      show places landmarks direction.text = [] from direction.quiet]
    rfl
  have hby := wordMarks_landmarks.places_foreign_append (by decide) foreign_by
    (spells_self "BY".toList) (nextIs_letter_blank (quoteName column ++ ' ' :: direction.text))
  rw [wordMarks_landmarks.places_blank_cons, hquiet] at hby
  have horder := occurrences_of_startsAt (l := .clause .order) (by decide)
    (spells_self "ORDER".toList) (order_startsAt _)
    (nextIs_letter_blank ("BY".toList ++ ' ' :: (quoteName column ++ ' ' :: direction.text)))
  rw [orderClause_eq, horder, occurrences, wordMarks_landmarks.places_blank_cons, hby]
  rfl

end Orders

theorem limitClause_eq (limit : Limit) :
    limitClause limit = "LIMIT".toList ++ ' ' :: limit.text := rfl

/-- A positive limit is written in digits. -/
theorem isDigit_of_mem_limitText {n : Int} (hn : 0 < n) {c : Char}
    (hc : c ∈ (Limit.whole n).text) : c.isDigit = true := by
  cases n with
  | ofNat n => exact Nat.isDigit_of_mem_toDigits (by decide) (by decide) hc
  | negSucc n => exact absurd hn (by simp)

theorem digits_limitText {n : Int} (hn : 0 < n) : Digits (Limit.whole n).text := by
  refine ⟨?_, fun c hc => (classes_of_isDigit (isDigit_of_mem_limitText hn hc)).1⟩
  cases n with
  | ofNat n => exact Nat.toDigits_ne_nil
  | negSucc n => exact absurd hn (by simp)

/-- The word `LIMIT` with a text behind it in which no `BY` can begin. -/
theorem limit_startsAt (hb : ∀ c ∈ t, sameLetter 'B' c = false) :
    (Landmark.clause .limit).startsAt ("LIMIT".toList ++ ' ' :: t) = true := by
  rw [Landmark.startsAt, startsAt_iff (by decide)]
  refine ⟨"LIMIT".toList, ' ' :: t, rfl, .last (spells_self _), nextIs_name_blank t,
    fun h => absurd h (by decide), fun _ => ?_⟩
  rintro ⟨numbers, gap, word, rest, htext, -, -, hword, -⟩
  cases hword with
  | @cons _ c _ word hc =>
      have hmem : c ∈ ' ' :: t := by
        rw [htext]
        simp
      rcases List.mem_cons.mp hmem with rfl | hmem
      · exact absurd hc (by decide)
      · exact absurd (hc.symm.trans (hb c hmem)) (by decide)

namespace Segment

/-- An order by a column. -/
def order (column : Column) (direction : Fragment) : Segment (.clause .order) where
  text := orderClause column.name direction.text
  closed := closed_orderClause column.plain direction
  marked := occurrences_orderClause column.plain direction
  clean := by
    have hclean : EndsClean ("ORDER BY ".toList ++ quoteName column.name ++ [' '] ++
        direction.text) := (endsClean_append_iff direction.nonempty _).mpr direction.clean
    rwa [List.append_assoc _ [' ']] at hclean
  rowLimit h := by cases h

/-- A limit of rows by one number. -/
def limit (n : Int) (hn : 0 < n) : Segment (.clause .limit) where
  text := limitClause (.whole n)
  closed := by
    have hplain : PlainText (Limit.whole n).text :=
      .of_class Char.isDigit (by decide) fun _ => isDigit_of_mem_limitText hn
    exact Closed.append (PlainText.closed (s := "LIMIT".toList) (by decide)) hplain.closed
  marked := by
    have hletters : (Limit.whole n).text.any isLetterAnyCase = false := by
      rw [List.any_eq_false]
      intro c hc
      simp [(classes_of_isDigit (isDigit_of_mem_limitText hn hc)).2.1]
    have hquiet : places landmarks (Limit.whole n).text = [] :=
      wordMarks_landmarks.places_of_not_letters hletters
    have hby : ∀ c ∈ (Limit.whole n).text, sameLetter 'B' c = false := fun c hc =>
      sameLetter_eq_false (by decide) (classes_of_isDigit (isDigit_of_mem_limitText hn hc)).2.1
    have hlimit := occurrences_of_startsAt (l := .clause .limit) (by decide)
      (spells_self "LIMIT".toList) (limit_startsAt hby) (nextIs_letter_blank _)
    rw [limitClause_eq, hlimit, occurrences, wordMarks_landmarks.places_blank_cons, hquiet]
    rfl
  clean := by
    have hlast : EndsClean (Limit.whole n).text := by
      intro c hc
      obtain ⟨hdecimal, -, hsemicolon⟩ :=
        classes_of_isDigit (isDigit_of_mem_limitText hn (List.mem_of_getLast? hc))
      exact ⟨isBlank_of_decimal hdecimal, hsemicolon⟩
    exact (endsClean_append_iff (digits_limitText hn).1 "LIMIT ".toList).mpr hlast
  rowLimit _ :=
    ⟨"LIMIT".toList, ' ' :: (Limit.whole n).text, rfl, spells_self _, [' '],
      (Limit.whole n).text, [], [], by simp, gap_singleton, digits_limitText hn, Or.inl rfl,
      Or.inl rfl⟩

end Segment

end QuerySplice.Sql
