import QuerySplice.Proofs.Insertions

/-!
# Inserted clauses

The texts that edits insert are a `WHERE` with a condition, an `ORDER BY` with one column and a
`LIMIT` with one number. Each is level, and its own keyword is the only landmark in it. So the list
of occurrences of any query, balanced or not, gets this one landmark: those in front of the clause
stay, and those behind it move by its length and a blank. Where the clause goes to the end of the
query this needs a level query, since the clause would be a part of what is left open otherwise.
-/

namespace QuerySplice.Sql

open Text

variable {α : Type} {s t u v x sql : Text} {c : Clause} {l : Landmark} {p : Nat}

/-! ## Places around an offset -/

/-- The places in front of an offset. -/
def placesBefore (p : Nat) (ps : List (α × Nat)) : List (α × Nat) := ps.filter fun q => q.2 < p

/-- The places at an offset and behind it. -/
def placesBehind (p : Nat) (ps : List (α × Nat)) : List (α × Nat) := ps.filter fun q => p ≤ q.2

theorem placesBefore_append {before : List (α × Nat)} (h : ∀ q ∈ before, q.2 < p)
    (behind : List (α × Nat)) : placesBefore p (before ++ shift p behind) = before := by
  have hbehind : placesBefore p (shift p behind) = [] := by
    refine List.filter_eq_nil_iff.mpr fun q hq => ?_
    obtain ⟨r, -, rfl⟩ := mem_shift.mp hq
    simp
  have hbefore : placesBefore p before = before :=
    List.filter_eq_self.mpr fun q hq => decide_eq_true (h q hq)
  rw [placesBefore, List.filter_append]
  exact (congrArg₂ (· ++ ·) hbefore hbehind).trans (List.append_nil _)

theorem placesBehind_append {before : List (α × Nat)} (h : ∀ q ∈ before, q.2 < p)
    (behind : List (α × Nat)) : placesBehind p (before ++ shift p behind) = shift p behind := by
  have hbefore : placesBehind p before = [] := by
    refine List.filter_eq_nil_iff.mpr fun q hq => ?_
    simpa using h q hq
  have hbehind : placesBehind p (shift p behind) = shift p behind := by
    refine List.filter_eq_self.mpr fun q hq => ?_
    obtain ⟨r, -, rfl⟩ := mem_shift.mp hq
    simp
  rw [placesBehind, List.filter_append]
  exact congrArg₂ (· ++ ·) hbefore hbehind

/-! ## The texts that are inserted -/

/-- The clauses that edits write: a filter with a level condition in which no landmark stands, an
order by a column without backslashes, and a positive limit. -/
inductive ClauseText : Clause → Text → Prop
  | filter {condition : Text} (hlevel : Level condition) (hquiet : occurrences condition = []) :
      ClauseText .filter ("WHERE ".toList ++ condition)
  | order {column : Text} (hplain : '\\' ∉ column) (order : Order) :
      ClauseText .order (orderClause column order.text)
  | limit {n : Int} (hn : 0 < n) : ClauseText .limit (limitClause n)

theorem introduces_filter (hlevel : Level s) (hquiet : occurrences s = []) :
    Introduces (.clause .filter) ("WHERE ".toList ++ s) := by
  have hword : PlainText "WHERE".toList := by decide
  have hsplit : "WHERE ".toList ++ s = "WHERE".toList ++ ' ' :: s := rfl
  rw [hsplit]
  refine ⟨hword.closed.level.append hlevel, ?_⟩
  rw [occurrences_filter (spells_self _) (nextIs_name_blank s), occurrences,
    wordMarks_landmarks.places_blank_cons, show places landmarks s = [] from hquiet]
  rfl

/-- Every clause that is written is level and has its keyword for its only landmark. -/
theorem ClauseText.introduces (h : ClauseText c x) : Introduces (.clause c) x := by
  cases h with
  | filter hlevel hquiet => exact introduces_filter hlevel hquiet
  | order hplain order =>
      exact ⟨(closed_orderClause hplain order.fragment).level,
        occurrences_orderClause hplain order.fragment⟩
  | limit hn => exact introduces_limitClause hn

/-! ## The occurrences of the result -/

/-- In front of a landmark a clause adds its own occurrence and moves the ones behind it. -/
theorem Introduces.occurrences_inFront (hx : Introduces l x)
    (h : firstPosition? c.followingKeywords sql = some p) :
    occurrences (insertBefore c.followingKeywords x sql) =
      placesBefore p (occurrences sql) ++
        (l, p) :: shift (x.length + 1) (placesBehind p (occurrences sql)) := by
  obtain ⟨u, v, k, rfl, rfl, hu, -, hv⟩ := firstPosition?_eq_some h
  obtain ⟨before, behind, hold, hnew, hlt⟩ := hx.occurrences_insert hu (Landmark.headed hv)
  rw [insertBefore_of_some h, hnew, hold, placesBefore_append hlt, placesBehind_append hlt,
    shift_shift]

/-- A clause is inserted as one piece and disturbs no occurrence: in front of the earliest clause
that follows it, or at the end of the query if there is none and the query is level. -/
theorem occurrences_insertBefore (hx : ClauseText c x) (sql : Text) :
    (∃ u v piece, sql = u ++ v ∧ insertBefore c.followingKeywords x sql = u ++ (piece ++ v) ∧
      (piece = x ++ [' '] ∨ piece = ' ' :: x)) ∧
    (∀ p, firstPosition? c.followingKeywords sql = some p →
      occurrences (insertBefore c.followingKeywords x sql) =
        placesBefore p (occurrences sql) ++
          (.clause c, p) :: shift (x.length + 1) (placesBehind p (occurrences sql))) ∧
    (firstPosition? c.followingKeywords sql = none → Level sql →
      occurrences (insertBefore c.followingKeywords x sql) =
        occurrences sql ++ [(.clause c, sql.length + 1)]) := by
  refine ⟨?_, fun p hp => hx.introduces.occurrences_inFront hp, fun hnone hlevel => ?_⟩
  · cases hfirst : firstPosition? c.followingKeywords sql with
    | some p =>
        obtain ⟨u, v, l, rfl, rfl, -⟩ := firstPosition?_eq_some hfirst
        refine ⟨u, v, x ++ [' '], rfl, ?_, Or.inl rfl⟩
        rw [insertBefore_of_some hfirst]
        simp
    | none =>
        refine ⟨sql, [], ' ' :: x, (List.append_nil sql).symm, ?_, Or.inr rfl⟩
        rw [insertBefore_of_none hfirst, List.append_nil]
  · rw [insertBefore_of_none hnone]
    exact hx.introduces.occurrences_append hlevel

/-- A query with a second `WHERE` to come, a limit for each group in front of the order, and a
literal that is never closed in parentheses that are not either. -/
def openSample : Text := "WHERE a LIMIT 1 BY b ORDER BY c LIMIT 2 UNION SELECT (d, 'ORDER BY".toList

/-- The second `WHERE` goes in front of the limit for each group and moves what follows by its
twenty-one characters; an order goes behind a level text. -/
theorem occurrences_insertBefore_openSample :
    ClauseText .filter ("WHERE ".toList ++ "x = ')' OR (y)".toList) ∧
      firstPosition? Clause.filter.followingKeywords openSample = some 8 ∧
      occurrences (insertBefore Clause.filter.followingKeywords
          ("WHERE ".toList ++ "x = ')' OR (y)".toList) openSample) =
        [(.clause .filter, 0), (.clause .filter, 8), (.perGroup, 29), (.clause .order, 42),
          (.clause .limit, 53)] ∧
      ClauseText .order (orderClause ['"'] Order.ascending.text) ∧ Level "WHERE ')'".toList ∧
      occurrences (insertBefore Clause.order.followingKeywords
          (orderClause ['"'] Order.ascending.text) "WHERE ')'".toList) =
        [(.clause .filter, 0), (.clause .order, 10)] := by
  have hfilter : ClauseText .filter ("WHERE ".toList ++ "x = ')' OR (y)".toList) :=
    .filter (by decide) (by decide)
  have horder : ClauseText .order (orderClause ['"'] Order.ascending.text) :=
    .order (by decide) .ascending
  have hlevel : Level "WHERE ')'".toList := by decide
  refine ⟨hfilter, by decide, ?_, horder, hlevel, ?_⟩
  · rw [(occurrences_insertBefore hfilter openSample).2.1 8 (by decide)]
    decide
  · rw [(occurrences_insertBefore horder _).2.2 (by decide) hlevel]
    decide

end QuerySplice.Sql
