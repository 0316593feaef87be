import Mathlib.Order.Bounds.Basic
import QuerySplice.Proofs.Insertions
import QuerySplice.Proofs.Outlines

/-!
# Scanning a slice of a query

The edits cut a query where a keyword was found, or where it ends, and scan the slice behind the cut
from a start of its own. The whole query is read there outside quotes and at depth zero, so the two
scans part in one thing only: the slice begins where a word may start, and behind a keyword no word
may. A keyword is followed by no character of a name, so nothing is found at that place anyway.
-/

namespace QuerySplice.Sql

open Text

variable {accepts : Text → Bool} {st st' : Scan} {u v sql : Text} {k : Keyword} {p q : Nat}

/-! ## Places behind a cut -/

/-- The places of the second of two texts put together. -/
theorem acceptedAt_append :
    AcceptedAt accepts st (u ++ v) (u.length + q) ↔ AcceptedAt accepts (st.after u) v q := by
  induction u generalizing st with
  | nil => simp
  | cons d u ih =>
      have hlength : (d :: u).length + q = u.length + q + 1 := by
        rw [List.length_cons]
        omega
      rw [List.cons_append, hlength, acceptedAt_succ, Scan.after_cons]
      exact ih

/-- Where nothing is accepted at the first character, it does not matter whether a word may start
there. -/
theorem acceptedAt_congr (hnone : accepts v = false) (hmode : st.mode = st'.mode)
    (hdepth : st.depth = st'.depth) : AcceptedAt accepts st v q ↔ AcceptedAt accepts st' v q := by
  cases v with
  | nil =>
      apply iff_of_false
      · exact not_acceptedAt_nil accepts st q
      · exact not_acceptedAt_nil accepts st' q
  | cons d v =>
      cases q with
      | zero => rw [acceptedAt_zero, acceptedAt_zero, hnone, Bool.and_false, Bool.and_false]
      | succ q => rw [acceptedAt_succ, acceptedAt_succ, Scan.step_congr hmode hdepth]

/-- Where a word may start, a text that opens no section is read as a query of its own. -/
theorem Scan.Ready.acceptedAt_iff (h : st.Ready) (hv : nextIs isQuoteMark v = false) :
    AcceptedAt accepts st v q ↔ AcceptedAt accepts .start v q := by
  cases v with
  | nil =>
      apply iff_of_false
      · exact not_acceptedAt_nil accepts st q
      · exact not_acceptedAt_nil accepts .start q
  | cons d v =>
      obtain ⟨hstep, htop⟩ := h.step_eq hv
      cases q with
      | zero => rw [acceptedAt_zero, acceptedAt_zero, htop]
      | succ q => rw [acceptedAt_succ, acceptedAt_succ, hstep]

/-- The answer of a finder in the slice from `p` on is the first place that the whole query has
there, counted from `p`. -/
structure FindsFrom (place : Nat → Prop) (p : Nat) (answer : Option Nat) : Prop where
  none_iff : answer = none ↔ ∀ q, p ≤ q → ¬ place q
  some_iff : ∀ r, answer = some r ↔ IsLeast {q | p ≤ q ∧ place q} (p + r)

theorem FindsFrom.congr {place place' : Nat → Prop} {answer : Option Nat}
    (h : FindsFrom place p answer) (hplace : ∀ q, place q ↔ place' q) :
    FindsFrom place' p answer := by
  obtain rfl : place = place' := by
    ext q
    exact hplace q
  exact h

/-- A slice whose places are those of the whole query is searched as the query is. -/
theorem findsFrom_of_iff (h : ∀ q, AcceptedAt accepts (Scan.start.after u) v q ↔
      AcceptedAt accepts .start v q) :
    FindsFrom (AcceptedAt accepts .start (u ++ v)) u.length (first? accepts v) := by
  have hplace : ∀ q, AcceptedAt accepts .start (u ++ v) (u.length + q) ↔
      AcceptedAt accepts .start v q := fun q => acceptedAt_append.trans (h q)
  constructor
  · rw [first?, firstFrom_eq_none_iff]
    constructor
    · intro hnone q hq
      obtain ⟨r, rfl⟩ := Nat.exists_eq_add_of_le hq
      rw [hplace]
      exact hnone r
    · intro hnone r hr
      apply hnone (u.length + r) (Nat.le_add_right _ _)
      rwa [hplace]
  · intro r
    rw [first?, firstFrom_eq_some_iff]
    constructor
    · rintro ⟨hr, hleast⟩
      refine ⟨⟨Nat.le_add_right _ _, (hplace r).mpr hr⟩, ?_⟩
      rintro q ⟨hle, hq⟩
      obtain ⟨r', rfl⟩ := Nat.exists_eq_add_of_le hle
      exact Nat.add_le_add_left (hleast ((hplace r').mp hq)) _
    · rintro ⟨⟨-, hr⟩, hleast⟩
      refine ⟨(hplace r).mp hr, ?_⟩
      intro r' hr'
      have hle := hleast ⟨Nat.le_add_right u.length r', (hplace r').mpr hr'⟩
      exact Nat.le_of_add_le_add_left hle

/-! ## Keywords as cuts -/

/-- What is accepted starts with a letter. -/
def OnLetters (accepts : Text → Bool) : Prop :=
  ∀ s, nextIs isLetterAnyCase s = false → accepts s = false

theorem onLetters_startsAt (hk : k ∈ locatable) : OnLetters k.startsAt := fun _ hs =>
  Keyword.startsAt_eq_false_of_not_letter (readable_of_locatable hk) hs

theorem onLetters_startsLimitBy : OnLetters startsLimitBy := by
  intro s hs
  refine Bool.eq_false_iff.mpr fun h => ?_
  have hmark : Landmark.perGroup ∈ landmarks s := mem_landmarks.mpr h
  rw [wordMarks_landmarks.eq_nil_of_not_letter hs] at hmark
  cases hmark

theorem Keyword.position?_eq_first? (hk : k ∈ locatable) (sql : Text) :
    k.position? sql = first? k.startsAt sql := by
  have hwords : k.words.isEmpty = false := by simpa using (locatable_words hk).1
  rw [Keyword.position?, hwords, if_neg (by simp)]

/-- A located keyword splits the query where a word may start. -/
theorem Keyword.exists_append (hk : k ∈ locatable) (h : k.position? sql = some p) :
    ∃ u v, sql = u ++ v ∧ u.length = p ∧ (Scan.start.after u).Ready ∧ k.startsAt v = true := by
  rw [Keyword.position?_eq_first? hk, first?] at h
  obtain ⟨u, d, v, rfl, rfl, htop, hstarts⟩ := (firstFrom_eq_some_iff.mp h).1
  exact ⟨u, d :: v, rfl, rfl, Scan.ready_of_topLevel htop, hstarts⟩

/-- The length of a keyword is that of the words it is spelled with, and no letter follows them. -/
theorem Keyword.exists_words (hk : k ∈ locatable) (h : k.startsAt v = true) (u : Text) :
    ∃ w body, v = w ++ body ∧ SpellsWords k.words w ∧ nextIs isLetterAnyCase body = false ∧
      lengthAt (u ++ v) u.length k = w.length := by
  obtain ⟨hne, hwords⟩ := locatable_words hk
  obtain ⟨body, hread, hrefused⟩ := Keyword.rest?_of_startsAt h
  have hrest : k.rest? v = some body := by
    rw [Keyword.rest?, hread, Option.filter_some, hrefused]
    rfl
  obtain ⟨w, rfl, hw⟩ := (readWords_eq_some_iff hne hwords).mp hread
  refine ⟨w, body, rfl, hw, ?_, ?_⟩
  · exact nextIs_letter_of_name ((isRefused_eq_false_iff hk body).mp hrefused).1
  · have hplace : min u.length (u ++ (w ++ body)).length = u.length := by
      apply Nat.min_eq_left
      rw [List.length_append]
      exact Nat.le_add_right _ _
    have hlength : (u ++ (w ++ body)).length = u.length + (w.length + body.length) := by
      rw [List.length_append, List.length_append]
    simp only [lengthAt, Int.toNat_natCast, hplace, List.drop_left, hrest]
    omega

/-- An offset at which a located keyword starts, or at which it ends. -/
inductive KeywordEdge (sql : Text) (p : Nat) : Prop
  | start {k : Keyword} (hk : k ∈ locatable) (h : k.position? sql = some p)
  | finish {k : Keyword} {o : Nat} (hk : k ∈ locatable) (h : k.position? sql = some o)
      (hp : (p : Int) = o + lengthAt sql o k)

/-- Behind a keyword the scan is outside quotes at depth zero. -/
theorem SpellsWords.scan_after {words : List Text} {w : Text} (hwords : ∀ word ∈ words, IsWord word)
    (hw : SpellsWords words w) (hu : (Scan.start.after u).Ready) :
    (Scan.start.after (u ++ w)).mode = .plain ∧ (Scan.start.after (u ++ w)).depth = 0 := by
  obtain ⟨d, r, rfl, hd⟩ := hw.exists_cons hwords
  have hplain := hw.plainText hwords
  have hstart := hu.after_append (v := d :: r) (hplain d (by simp)).1 (by simp)
  rw [hstart]
  exact hplain.after rfl

/-- At the edges of a keyword a slice is searched as the whole query is. -/
theorem KeywordEdge.findsFrom (hp : KeywordEdge sql p) (haccepts : OnLetters accepts) :
    FindsFrom (AcceptedAt accepts .start sql) p (first? accepts (sql.drop p)) := by
  cases hp with
  | start hk h =>
      obtain ⟨u, v, rfl, rfl, hu, hstarts⟩ := Keyword.exists_append hk h
      rw [List.drop_left]
      apply findsFrom_of_iff
      intro q
      apply hu.acceptedAt_iff
      obtain ⟨w, body, rfl, hw, -⟩ := Keyword.exists_words hk hstarts u
      obtain ⟨d, r, rfl, -⟩ := hw.exists_cons (locatable_words hk).2
      exact (hw.plainText (locatable_words hk).2 d (by simp)).1
  | finish hk h hp =>
      obtain ⟨u, v, rfl, rfl, hu, hstarts⟩ := Keyword.exists_append hk h
      obtain ⟨w, body, rfl, hw, hbody, hlength⟩ := Keyword.exists_words hk hstarts u
      obtain ⟨hmode, hdepth⟩ := hw.scan_after (locatable_words hk).2 hu
      have hoffset : p = (u ++ w).length := by
        rw [hlength] at hp
        rw [List.length_append]
        omega
      rw [← List.append_assoc, hoffset, List.drop_left]
      apply findsFrom_of_iff
      intro q
      exact acceptedAt_congr (haccepts body hbody) hmode hdepth

/-- The per-group limit stands at offset `p` of the query, outside quotes and parentheses and behind
no name. -/
def LimitByPlace (inName : Char → Bool) (sql : Text) (p : Nat) : Prop :=
  ∃ before c after, Decomposes sql (before ++ .plain c :: after) ∧
    (textOf before).length = p ∧ depthOf before = 0 ∧
    (∀ d ∈ (textOf before).getLast?, isNameChar d = false ∧ d ≠ '.') ∧
    ∃ word rest, sql.drop p = word ++ rest ∧ Spells "LIMIT".toList word ∧
      LimitByArguments inName rest

theorem acceptedAt_startsLimitBy_iff (sql : Text) (p : Nat) :
    AcceptedAt startsLimitBy .start sql p ↔ LimitByPlace isNameCharAnyCase sql p := by
  rw [acceptedAt_start_iff]
  simp only [startsLimitBy_iff, LimitByPlace]

/-- At the edges of a keyword a locator finds in the slice what stands first in the whole query from
there on. -/
theorem KeywordEdge.findsFrom_position? (hp : KeywordEdge sql p) (hk : k ∈ locatable) :
    FindsFrom (KeywordPlace isNameCharAnyCase k sql) p (k.position? (sql.drop p)) := by
  rw [Keyword.position?_eq_first? hk]
  apply (hp.findsFrom (onLetters_startsAt hk)).congr
  exact acceptedAt_iff hk sql

/-- Every locator finds in the slice from an edge of a keyword on the first place of the whole query
there, and none exactly if the query has none there. -/
theorem findsFrom_position?_drop (hp : KeywordEdge sql p) :
    (∀ k ∈ locatable,
        FindsFrom (KeywordPlace isNameCharAnyCase k sql) p (k.position? (sql.drop p))) ∧
      FindsFrom (LimitByPlace isNameCharAnyCase sql) p (limitByPosition? (sql.drop p)) := by
  constructor
  · intro k hk
    exact hp.findsFrom_position? hk
  · apply (hp.findsFrom onLetters_startsLimitBy).congr
    exact acceptedAt_startsLimitBy_iff sql

/-- Behind `SELECT` the limits in the literal are passed over, the one for each group is found, and
the limit of rows behind that one. -/
theorem findsFrom_position?_drop_select :
    KeywordEdge "SELECT(1)'LIMIT 1 BY c' FROM t LIMIT 2 BY a LIMIT 3".toList 6 ∧
      IsLeast {q | 6 ≤ q ∧ KeywordPlace isNameCharAnyCase Clause.limit.keyword
        "SELECT(1)'LIMIT 1 BY c' FROM t LIMIT 2 BY a LIMIT 3".toList q} 44 ∧
      IsLeast {q | 6 ≤ q ∧ LimitByPlace isNameCharAnyCase
        "SELECT(1)'LIMIT 1 BY c' FROM t LIMIT 2 BY a LIMIT 3".toList q} 31 := by
  have hedge : KeywordEdge "SELECT(1)'LIMIT 1 BY c' FROM t LIMIT 2 BY a LIMIT 3".toList 6 :=
    .finish (k := .select) (o := 0) (by decide) (by decide) (by decide)
  obtain ⟨hkeywords, hperGroup⟩ := findsFrom_position?_drop hedge
  refine ⟨hedge, ?_, ?_⟩
  · exact ((hkeywords Clause.limit.keyword (by decide)).some_iff 38).mp (by decide)
  · exact (hperGroup.some_iff 25).mp (by decide)

end QuerySplice.Sql
