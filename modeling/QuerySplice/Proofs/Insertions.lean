import QuerySplice.Proofs.Edits

/-!
# Insertions into queries

A clause goes in front of the landmark that is found, or behind the end of the query. The query may
be any text: parentheses left open, sections never closed and clauses in any order. In front of a
landmark the scan is as it is where every scan begins, so the inserted clause is read as if it stood
alone, what follows it is read as before, and nothing in front of it can tell the clause from the
landmark that stood there. The same holds at the end of a level text.
-/

namespace QuerySplice.Sql

open Text

variable {α : Type} {words : List Text} {marks : Text → List α} {s t u v x : Text} {c : Clause}
  {l : Landmark} {st : Scan}

/-! ## Where a word may start -/

/-- The scan is outside quotes at depth zero where a word may start. -/
structure Scan.Ready (st : Scan) : Prop where
  marked : st.Marked
  outside : st.isOutside = true
  depth : st.depth = 0
  wordStart : st.wordStart = true

theorem Scan.ready_start : Scan.start.Ready := ⟨trivial, rfl, rfl, rfl⟩

theorem Scan.isOutside_of_outside {d : Char} (h : st.outside d = true) : st.isOutside = true := by
  cases hmode : st.mode with
  | plain => simp [isOutside, hmode]
  | closing mark => simp [isOutside, hmode]
  | quoted mark => simp [outside, hmode] at h
  | escaped mark => simp [outside, hmode] at h

/-- Inside quotes a character that is no quote mark stays inside. -/
theorem Scan.isOutside_step {d : Char} (hst : st.Marked) (hd : isQuoteMark d = false)
    (h : st.isOutside = false) : (st.step d).isOutside = false := by
  cases hmode : st.mode with
  | plain => simp [isOutside, hmode] at h
  | closing mark => simp [isOutside, hmode] at h
  | escaped mark => simp [isOutside, step, modeAfter, outside, hmode]
  | quoted mark =>
      have hmark : isQuoteMark mark = true := by simpa [Marked, hmode] using hst
      have hne : d ≠ mark := by
        rintro rfl
        rw [hmark] at hd
        cases hd
      by_cases hescape : d = '\\'
      · simp [isOutside, step, modeAfter, outside, hmode, hescape]
      · simp [isOutside, step, modeAfter, outside, hmode, hescape, hne]

theorem Scan.ready_of_topLevel {d : Char} (h : (start.after u).topLevel d = true) :
    (start.after u).Ready := by
  obtain ⟨hplain, hdepth, hword⟩ := (topLevel_iff _ _).mp h
  exact ⟨marked_after ready_start.marked u, isOutside_of_outside hplain.1, hdepth, hword⟩

theorem Level.ready (h : Level s) : (Scan.start.after (s ++ [' '])).Ready := by
  have hstart : Scan.start.after (s ++ [' ']) = Scan.start := by
    rw [Scan.after_append]
    exact h.step_blank
  rw [hstart]
  exact Scan.ready_start

namespace Scan.Ready

theorem topLevel (h : st.Ready) {d : Char} (hd : isLetterAnyCase d = true) :
    st.topLevel d = true := by
  have hplain : PlainText [d] := .of_class isLetterAnyCase (by decide) (by simpa using hd)
  obtain ⟨hmark, hweight⟩ := hplain d (by simp)
  have hparens : d ≠ '(' ∧ d ≠ ')' := by
    constructor <;> rintro rfl <;> exact absurd hweight (by decide)
  exact (topLevel_iff st d).mpr
    ⟨⟨outside_of_isOutside h.marked h.outside hmark, hmark, hparens⟩, h.depth, h.wordStart⟩

/-- No name runs into what follows. -/
theorem not_isNameChar (h : (start.after u).Ready) : ∀ d ∈ u.getLast?, isNameChar d = false :=
  fun d hd => ((wordStart_after_iff u).mp h.wordStart d hd).1

/-- A character that is no quote mark is read as the first one of a query. -/
theorem step_eq (h : st.Ready) {d : Char} (hd : isQuoteMark d = false) :
    st.step d = start.step d ∧ st.topLevel d = start.topLevel d := by
  have hout := outside_of_isOutside h.marked h.outside hd
  have hstart : start.outside d = true := rfl
  constructor
  · simp only [step, modeAfter, hout, hstart, h.depth, if_true]
    rfl
  · simp only [Scan.topLevel, hout, hstart, h.depth, h.wordStart]
    rfl

theorem placesFrom_eq (h : st.Ready) (ht : nextIs isQuoteMark t = false) :
    placesFrom marks st t = places marks t := by
  cases t with
  | nil => rfl
  | cons d t =>
      obtain ⟨hstep, htop⟩ := h.step_eq ht
      rw [places, placesFrom, placesFrom, hstep, htop]

/-- The scan of what follows a text where a word may start is the one of a query of its own. -/
theorem after_append (h : (start.after u).Ready) (hv : nextIs isQuoteMark v = false)
    (hne : v ≠ []) : start.after (u ++ v) = start.after v := by
  cases v with
  | nil => exact absurd rfl hne
  | cons d v => rw [Scan.after_append, after_cons, after_cons, (h.step_eq hv).1]

/-- The places behind a text where a word may start. -/
theorem places_append (h : (start.after u).Ready) (ht : nextIs isQuoteMark t = false) :
    places marks (u ++ t) =
      placesFrom (fun b => marks (b ++ t)) start u ++ shift u.length (places marks t) := by
  rw [places, placesFrom_append, h.placesFrom_eq ht]

end Scan.Ready

theorem Headed.nextIs_isQuoteMark (h : Headed t) : nextIs isQuoteMark t = false := by
  obtain ⟨d, r, rfl, hd⟩ := h.exists_cons
  have hplain : PlainText [d] := .of_class isLetterAnyCase (by decide) (by simpa using hd)
  exact (hplain d (by simp)).1

/-- A landmark at the start of a text is its first occurrence. -/
theorem Landmark.occurrences_eq_cons (ht : l.startsAt t = true) :
    ∃ ps, occurrences t = (l, 0) :: ps := by
  obtain ⟨d, r, rfl, hd⟩ := (Landmark.headed ht).exists_cons
  rw [occurrences, places, placesFrom, Scan.ready_start.topLevel hd, landmarks_eq_singleton ht]
  exact ⟨_, rfl⟩

/-- What occurs behind a text where a word may start occurs in the whole. -/
theorem mem_occurrences_append {l : Landmark} {p : Nat} (hu : (Scan.start.after u).Ready)
    (ht : nextIs isQuoteMark t = false) (hmem : (l, p) ∈ occurrences t) :
    (l, p + u.length) ∈ occurrences (u ++ t) := by
  rw [occurrences, hu.places_append ht]
  exact List.mem_append_right _ (mem_shift.mpr ⟨(l, p), hmem, rfl⟩)

theorem mem_occurrences_of_ready {l : Landmark} (hu : (Scan.start.after u).Ready)
    (ht : l.startsAt t = true) : (l, u.length) ∈ occurrences (u ++ t) := by
  obtain ⟨ps, hps⟩ := Landmark.occurrences_eq_cons ht
  have hfirst : (l, 0) ∈ occurrences t := by
    rw [hps]
    exact List.mem_cons_self
  simpa using mem_occurrences_append hu (Landmark.headed ht).nextIs_isQuoteMark hfirst

/-! ## Where a clause is inserted -/

/-- The landmark that is found splits the query where a word may start. -/
theorem firstPosition?_eq_some {sql : Text} {p : Nat}
    (h : firstPosition? c.followingKeywords sql = some p) :
    ∃ u v l, sql = u ++ v ∧ u.length = p ∧ (Scan.start.after u).Ready ∧ l ∈ c.after ∧
      l.startsAt v = true := by
  rw [firstPosition?_eq_find?, ← first?_eq_find?] at h
  obtain ⟨u, d, v, rfl, rfl, htop, hany⟩ := (firstFrom_eq_some_iff.mp h).1
  obtain ⟨l, hl, hstarts⟩ := List.any_eq_true.mp hany
  exact ⟨u, d :: v, l, rfl, rfl, Scan.ready_of_topLevel htop, hl, hstarts⟩

theorem firstPosition?_eq_none_iff {sql : Text} :
    firstPosition? c.followingKeywords sql = none ↔ ∀ q ∈ occurrences sql, q.1 ∉ c.after := by
  rw [firstPosition?_eq_find?, Option.map_eq_none_iff, List.find?_eq_none]
  simp only [List.contains_iff_mem]

/-- The clause that is found splits the query in the same way. -/
theorem Clause.position?_eq_some {sql : Text} {p : Nat} (h : c.position? sql = some p) :
    ∃ u v, sql = u ++ v ∧ u.length = p ∧ (Scan.start.after u).Ready ∧
      (Landmark.clause c).startsAt v = true := by
  have hwords : c.keyword.words.isEmpty = false := by cases c <;> rfl
  rw [Clause.position?, Keyword.position?, hwords, if_neg (by simp)] at h
  obtain ⟨u, d, v, rfl, rfl, htop, hstarts⟩ := (firstFrom_eq_some_iff.mp h).1
  exact ⟨u, d :: v, rfl, rfl, Scan.ready_of_topLevel htop, hstarts⟩

theorem insertBefore_of_none {sql : Text} (h : firstPosition? c.followingKeywords sql = none)
    (text : Text) : insertBefore c.followingKeywords text sql = sql ++ ' ' :: text := by
  rw [insertBefore, h]

theorem insertBefore_of_some (h : firstPosition? c.followingKeywords (u ++ v) = some u.length)
    (text : Text) :
    insertBefore c.followingKeywords text (u ++ v) = u ++ (text ++ ' ' :: v) := by
  rw [insertBefore, h]
  simp

theorem length_insertBefore (keywords : List Keyword) (text sql : Text) :
    (insertBefore keywords text sql).length = sql.length + text.length + 1 := by
  rw [insertBefore]
  split
  · have := congrArg List.length (List.take_append_drop ‹Nat› sql)
    simp only [List.length_append, List.length_cons] at this ⊢
    omega
  · simp only [List.length_append, List.length_cons]
    omega

/-! ## What is found in the result -/

theorem hasClause_iff (c : Clause) (sql : Text) :
    hasClause c sql = true ↔ Landmark.clause c ∈ (occurrences sql).map Prod.fst := by
  rw [hasClause, Clause.position?_eq_find?, Option.isSome_map, List.find?_isSome, List.mem_map]
  simp only [List.contains_cons, List.contains_nil, Bool.or_false, beq_iff_eq]

/-- The text is level, and its only landmark is `l` at its start. -/
structure Introduces (l : Landmark) (x : Text) : Prop where
  level : Level x
  marked : occurrences x = [(l, 0)]

theorem Segment.introduces (x : Segment l) : Introduces l x.text := ⟨x.closed.level, x.marked⟩

theorem introduces_limitClause {n : Int} (hn : 0 < n) :
    Introduces (.clause .limit) (limitClause n) := (Segment.limit n hn).introduces

/-- A headed text that goes in front of a landmark adds its own places: what stands before it stays,
and what stands behind it moves by its length and a blank. -/
theorem WordMarks.places_insert (hm : WordMarks words marks) (hu : (Scan.start.after u).Ready)
    (hx : Level x) (hx' : Headed x) (hv : Headed v) :
    ∃ before behind, before = placesFrom (fun b => marks (b ++ v)) .start u ∧
      places marks (u ++ v) = before ++ shift u.length behind ∧
      places marks (u ++ (x ++ ' ' :: v)) =
        before ++ shift u.length (places marks x ++ shift (x.length + 1) behind) := by
  have hheaded : Headed (x ++ ' ' :: v) := hx'.append _
  have halike : Alike u (x ++ ' ' :: v) v := alike_of_headed hu.not_isNameChar hheaded hv
  refine ⟨_, places marks v, rfl, hu.places_append hv.nextIs_isQuoteMark, ?_⟩
  rw [hu.places_append hheaded.nextIs_isQuoteMark, hm.placesFrom_cut halike,
    hm.places_seam hx hv.fresh]

namespace Introduces

variable (hx : Introduces l x)

include hx

theorem startsAt : l.startsAt x = true := by
  have hmem : (l, 0) ∈ occurrences x := by
    rw [hx.marked]
    exact List.mem_singleton_self _
  exact mem_landmarks.mp (mem_marks_of_mem_placesFrom hmem)

theorem headed : Headed x := Landmark.headed hx.startsAt

/-- Nothing is lost where a clause goes in front of a landmark, and only the clause is added. -/
theorem occurrences_insert (hu : (Scan.start.after u).Ready) (hv : Headed v) :
    ∃ before behind, occurrences (u ++ v) = before ++ shift u.length behind ∧
      occurrences (u ++ (x ++ ' ' :: v)) =
        before ++ (l, u.length) :: shift (u.length + (x.length + 1)) behind ∧
      ∀ q ∈ before, q.2 < u.length := by
  obtain ⟨before, behind, hbefore, hold, hnew⟩ :=
    wordMarks_landmarks.places_insert hu hx.level hx.headed hv
  refine ⟨before, behind, hold, ?_, fun q hq => ?_⟩
  · rw [show places landmarks x = [(l, 0)] from hx.marked] at hnew
    rw [occurrences, hnew]
    simp [shift, Nat.add_comm, Nat.add_left_comm]
  · rw [hbefore] at hq
    exact lt_length_of_mem_placesFrom hq

/-- Behind a level text the clause stands after everything else. -/
theorem occurrences_append (hs : Level s) :
    occurrences (s ++ ' ' :: x) = occurrences s ++ [(l, s.length + 1)] := by
  rw [occurrences, wordMarks_landmarks.places_seam hs hx.headed.fresh,
    show places landmarks x = [(l, 0)] from hx.marked]
  simp [shift, occurrences]

theorem hasClause_insert {d : Clause} (hu : (Scan.start.after u).Ready) (hv : Headed v)
    (hne : l ≠ .clause d) : hasClause d (u ++ (x ++ ' ' :: v)) = hasClause d (u ++ v) := by
  obtain ⟨before, behind, hold, hnew, -⟩ := hx.occurrences_insert hu hv
  rw [Bool.eq_iff_iff, hasClause_iff, hasClause_iff, hold, hnew]
  simp only [List.map_append, List.map_cons, map_fst_shift, List.mem_append, List.mem_cons,
    hne.symm, false_or]

theorem hasClause_append {d : Clause} (hs : Level s) (hne : l ≠ .clause d) :
    hasClause d (s ++ ' ' :: x) = hasClause d s := by
  rw [Bool.eq_iff_iff, hasClause_iff, hasClause_iff, hx.occurrences_append hs]
  simp only [List.map_append, List.map_cons, List.map_nil, List.mem_append, List.mem_singleton,
    hne.symm, or_false]

end Introduces

end QuerySplice.Sql
