import QuerySplice.Proofs.Injections
import QuerySplice.Session.Executor

/-!
# What a preparation notes

Processors note an injection when it changed the text of the query. A clause that is inserted always
changes it: what followed begins with another word or with no letter at all. So the notes tell which
processors inserted a clause, each into the query that reached it, and the last of them stands in
the notes. Nothing else comes into the record of a preparation, and what an executor keeps of its
last query depends on the processors and on that query alone.
-/

namespace QuerySplice

open Text

namespace Sql

variable {c : Clause} {x sql : Text} {limit : Limit} {column direction : Text}

/-! ## Insertions change the text -/

/-- No clause comes after itself. -/
theorem clause_not_mem_after (c : Clause) : Landmark.clause c ∉ c.after := by
  cases c <;> decide

theorem startsAt_append_terminator {l : Landmark} {s t : Text} (ht : IsTerminator t) (hne : s ≠ []) :
    l.startsAt (s ++ t) = l.startsAt s := by
  have hcut := wordMarks_landmarks.cut (ht.alike s) List.suffix_rfl hne
  rw [Bool.eq_iff_iff, ← mem_landmarks, ← mem_landmarks, hcut, List.append_nil]

/-- A query with a clause put in is not the query without it, whatever was dropped at its end. -/
theorem insertBefore_trimTerminator_ne (hx : (Landmark.clause c).startsAt x = true) (sql : Text) :
    insertBefore c.followingKeywords x (trimTerminator sql) ≠ sql := by
  obtain ⟨tail, hsql, htail⟩ := exists_append_terminator sql
  generalize trimTerminator sql = front at hsql
  subst hsql
  intro hsame
  cases hfirst : firstPosition? c.followingKeywords front with
  | none =>
      -- behind the query stands its terminator, which has no letters
      rw [insertBefore_of_none hfirst] at hsame
      have htext : ' ' :: x = tail := List.append_cancel_left hsame
      obtain ⟨d, r, rfl, hd⟩ := (Landmark.headed hx).exists_cons
      have hnone := htail.not_letter
      rw [← htext] at hnone
      simp [hd] at hnone
  | some p =>
      -- two landmarks would begin at one place
      obtain ⟨u, v, l, rfl, rfl, -, hl, hv⟩ := firstPosition?_eq_some hfirst
      rw [insertBefore_of_some hfirst, List.append_assoc] at hsame
      have htext : x ++ ' ' :: v = v ++ tail := List.append_cancel_left hsame
      have hne : v ≠ [] := by
        rintro rfl
        obtain ⟨_, _, hcons, -⟩ := (Landmark.headed hv).exists_cons
        cases hcons
      have hclause := startsAt_append_blank hx (Landmark.headed hv).fresh
      rw [htext, startsAt_append_terminator htail hne] at hclause
      rw [Landmark.eq_of_startsAt hv hclause] at hl
      exact clause_not_mem_after c hl

theorem injectLimit_ne_iff : injectLimit limit sql ≠ sql ↔ takesLimit limit sql = true := by
  cases htakes : takesLimit limit sql with
  | true =>
      rw [injectLimit_of_takes htakes]
      exact iff_of_true (insertBefore_trimTerminator_ne (limitClause_startsAt limit) sql) rfl
  | false => simp [injectLimit_of_not_takes htakes]

theorem injectOrder_ne_iff : injectOrder column direction sql ≠ sql ↔ takesOrder column sql = true := by
  cases htakes : takesOrder column sql with
  | true =>
      rw [injectOrder_of_takes htakes]
      exact iff_of_true (insertBefore_trimTerminator_ne (orderClause_startsAt column direction) sql)
        rfl
  | false => simp [injectOrder_of_not_takes htakes]

end Sql

namespace Processor

/-! ## Stages -/

/-- The limit that the processor inserts into a query. -/
def insertedLimit? : Processor → Text → Option Sql.Limit
  | limit n, sql => if Sql.takesLimit n sql then some n else none
  | order _ _, _ | page _, _ => none

/-- The column of the order that the processor inserts into a query. -/
def insertedOrder? : Processor → Text → Option Text
  | order column _, sql => if Sql.takesOrder column sql then some column else none
  | limit _, _ | page _, _ => none

/-- The direction of the page that the processor makes. -/
def direction? : Processor → Option Sql.Direction
  | page pg => some pg.direction
  | limit _ | order _ _ => none

/-- What the processors make of a query, from left to right. -/
def composed (ps : List Processor) (sql : Text) : Text := ps.foldl (fun query p => p.apply query) sql

/-- The processors, each with the query that reaches it. -/
def stages : List Processor → Text → List (Processor × Text)
  | [], _ => []
  | p :: ps, sql => (p, sql) :: stages ps (p.apply sql)

/-- One processor changes the query as it does, and notes what it inserted or its page. -/
theorem before_eq (p : Processor) (r : Preparation) :
    p.before r =
      { given := r.given
        query := p.apply r.query
        injectedLimit := (p.insertedLimit? r.query).or r.injectedLimit
        injectedOrder := (p.insertedOrder? r.query).or r.injectedOrder
        direction := p.direction?.or r.direction } := by
  cases p with
  | limit n =>
      simp only [before, apply, Sql.injectLimit_ne_iff, insertedLimit?, insertedOrder?, direction?,
        Option.none_or]
      cases Sql.takesLimit n r.query <;> rfl
  | order column direction =>
      simp only [before, apply, Sql.injectOrder_ne_iff, insertedLimit?, insertedOrder?, direction?,
        Option.none_or]
      cases Sql.takesOrder column r.query <;> rfl
  | page pg => rfl

end Processor

namespace Preparation

open Processor

/-- The record of a query that the processors prepared: what was given, what they made of it
together, and the last clause of each kind that one of them inserted at its stage. -/
def ofStages (ps : List Processor) (sql : Text) : Preparation where
  given := sql
  query := composed ps sql
  injectedLimit := ((stages ps sql).filterMap fun st => st.1.insertedLimit? st.2).getLast?
  injectedOrder := ((stages ps sql).filterMap fun st => st.1.insertedOrder? st.2).getLast?
  direction := (ps.filterMap direction?).getLast?

theorem getLast?_filterMap_cons {α β : Type} (f : α → Option β) (a : α) (l : List α) :
    ((a :: l).filterMap f).getLast? = (l.filterMap f).getLast?.or (f a) := by
  cases h : f a with
  | none => rw [List.filterMap_cons_none h, Option.or_none]
  | some b =>
      rw [List.filterMap_cons_some h, List.getLast?_cons]
      cases (l.filterMap f).getLast? <;> rfl

/-- The processors leave the record of their stages, in front of what was noted before. -/
theorem foldl_before (ps : List Processor) (r : Preparation) :
    ps.foldl (fun r p => p.before r) r =
      { given := r.given
        query := (ofStages ps r.query).query
        injectedLimit := (ofStages ps r.query).injectedLimit.or r.injectedLimit
        injectedOrder := (ofStages ps r.query).injectedOrder.or r.injectedOrder
        direction := (ofStages ps r.query).direction.or r.direction } := by
  induction ps generalizing r with
  | nil => rfl
  | cons p ps ih =>
      rw [List.foldl_cons, ih, before_eq]
      simp only [ofStages, composed, stages, List.foldl_cons, getLast?_filterMap_cons, Option.or_assoc]

/-- What is kept of a prepared query comes from the processors and the query alone. -/
theorem last_prepare (x : Executor) (sql : Text) :
    (x.prepare sql).last = ofStages x.processors sql := by
  rw [Executor.prepare, foldl_before]
  simp only [start, ofStages, Option.or_none]

end Preparation

end QuerySplice
