import QuerySplice.Sql.Inject
import QuerySplice.Proofs.Segments

/-!
# Edits of queries and of records

An edit of a query finds its place in the text. On the text of a record it finds the place of a
segment, or the end of the segments in front of it, and what it returns is the text of a record
again: the one in which a segment was set or removed. So a run of edits on the text is a run of
edits on the record, however long it is and whichever segments are there.
-/

namespace QuerySplice.Sql

open Text

variable {s : Text} {c : Clause} {ps : List (Σ l, Segment l)}

/-! ## Places in the text of a record -/

theorem firstPosition?_joined (hs : Closed s) (hquiet : ∀ q ∈ occurrences s, q.1 ∉ c.after)
    (hps : ∀ p ∈ ps, p.1 ∈ c.after) :
    firstPosition? c.followingKeywords (s ++ joined ps) = ps.head?.map fun _ => s.length + 1 := by
  rw [firstPosition?_eq_find?]
  exact find?_occurrences_joined hs hquiet fun p hp => hps p (List.mem_of_head? hp)

theorem take_length_succ (s t : Text) : (s ++ ' ' :: t).take (s.length + 1) = s ++ [' '] := by
  rw [List.take_length_add_append]
  rfl

theorem drop_length_succ (s t : Text) : (s ++ ' ' :: t).drop (s.length + 1) = t := by
  rw [List.drop_length_add_append]
  rfl

/-- A clause goes between a text and the segments that come after it. -/
theorem insertBefore_joined (hs : Closed s) (hquiet : ∀ q ∈ occurrences s, q.1 ∉ c.after)
    (hps : ∀ p ∈ ps, p.1 ∈ c.after) (text : Text) :
    insertBefore c.followingKeywords text (s ++ joined ps) = s ++ ' ' :: (text ++ joined ps) := by
  rw [insertBefore, firstPosition?_joined hs hquiet hps]
  cases ps with
  | nil => simp
  | cons p ps =>
      rw [joined_cons]
      change (s ++ ' ' :: (p.2.text ++ joined ps)).take (s.length + 1) ++ text ++
        ' ' :: (s ++ ' ' :: (p.2.text ++ joined ps)).drop (s.length + 1) = _
      rw [take_length_succ, drop_length_succ]
      simp

namespace Record

variable (r : Record)

/-- The clauses that edits put into a query. -/
def edited : List Clause := [.filter, .order, .limit]

/-- What is written behind an edited clause ends its text, and nothing in front of it does. -/
theorem mem_after (hc : c ∈ edited) :
    (∀ l ∈ r.behind (.clause c), l ∈ c.after) ∧
      ∀ l ∈ r.before (.clause c), l ∉ c.after := by
  have hall : ∀ b, ∀ c ∈ edited,
      (∀ l ∈ ((orderOf b).dropWhile (· != .clause c)).tail, l ∈ c.after) ∧
        ∀ l ∈ (orderOf b).takeWhile (· != .clause c), l ∉ c.after := by decide
  exact hall r.formatFirst c hc

theorem quiet_lead (hc : c ∈ edited) :
    ∀ q ∈ occurrences (r.lead (.clause c)), q.1 ∉ c.after := fun _ hq =>
  (r.mem_after hc).2 _ (r.mem_before_of_mem_occurrences_lead hq)

theorem mem_after_of_mem_trail (hc : c ∈ edited) :
    ∀ p ∈ r.trail (.clause c), p.1 ∈ c.after := fun _ hp =>
  (r.mem_after hc).1 _ (r.mem_of_mem_segments hp)

/-- A clause that the record lacks goes to its place. -/
theorem insertBefore_render (hc : c ∈ edited) (h : r.segment (.clause c) = none)
    (t : Segment (.clause c)) :
    insertBefore c.followingKeywords t.text r.render = (r.set (.clause c) (some t)).render := by
  rw [r.render_of_none h, render_set_some, joined_cons]
  exact insertBefore_joined (r.closed_lead _) (r.quiet_lead hc) (r.mem_after_of_mem_trail hc) t.text

/-- A clause goes to the place from which another one of its kind was removed. -/
theorem insertBefore_set_none (hc : c ∈ edited) (t : Segment (.clause c)) :
    insertBefore c.followingKeywords t.text (r.set (.clause c) none).render =
      (r.set (.clause c) (some t)).render := by
  rw [(r.set (.clause c) none).insertBefore_render hc (r.set_self _ _) t, r.set_set]

/-- The locator finds the segment of a clause where it was put. -/
theorem position?_render (c : Clause) :
    c.position? r.render =
      (r.segment (.clause c)).map fun _ => (r.lead (.clause c)).length + 1 := by
  have hquiet : ∀ q ∈ occurrences (r.lead (.clause c)), q.1 ∉ [Landmark.clause c] := by
    intro q hq hmem
    have hbefore := r.mem_before_of_mem_occurrences_lead hq
    rw [List.mem_singleton.mp hmem] at hbefore
    exact r.ne_of_mem_before_or_behind (Or.inl hbefore) rfl
  rw [Clause.position?_eq_find?]
  cases h : r.segment (.clause c) with
  | some t =>
      rw [r.render_of_some h]
      refine find?_occurrences_joined (r.closed_lead _) hquiet fun p hp => ?_
      obtain rfl := Option.mem_some_iff.mp hp
      exact List.mem_singleton_self _
  | none =>
      have hnone : ∀ q ∈ occurrences r.render, q.1 ∉ [Landmark.clause c] := by
        intro q hq hmem
        rw [r.render_of_none h] at hq
        rcases mem_occurrences_joined (r.closed_lead _) _ q hq with hq | hq
        · exact hquiet q hq hmem
        · obtain ⟨p, hp, hq⟩ := List.mem_map.mp hq
          have hbehind := r.mem_of_mem_segments hp
          rw [hq, List.mem_singleton.mp hmem] at hbehind
          exact r.ne_of_mem_before_or_behind (Or.inr hbehind) rfl
      rw [Option.map_none, Option.map_eq_none_iff, List.find?_eq_none]
      intro q hq hmem
      exact hnone q hq (List.contains_iff_mem.mp hmem)

/-- The clauses after a segment begin behind it and a blank. -/
theorem firstPosition?_segment (hc : c ∈ edited) (t : Segment (.clause c)) :
    firstPosition? c.followingKeywords (t.text ++ joined (r.trail (.clause c))) =
      (r.trail (.clause c)).head?.map fun _ => t.text.length + 1 := by
  have hself : ∀ c ∈ edited, Landmark.clause c ∉ c.after := by decide
  refine firstPosition?_joined t.closed ?_ (r.mem_after_of_mem_trail hc)
  intro q hq
  rw [t.marked, List.mem_singleton] at hq
  rw [hq]
  exact hself c hc

end Record

/-! ## Removing an order and a limit -/

namespace Record

variable (r : Record)

/-- The text of a record at the place of one of its segments. -/
theorem take_drop_render {l : Landmark} {t : Segment l} (h : r.segment l = some t) :
    r.render.take ((r.lead l).length + 1) = r.lead l ++ [' '] ∧
      r.render.drop ((r.lead l).length + 1) = t.text ++ joined (r.trail l) := by
  rw [r.render_of_some h, joined_cons]
  exact ⟨take_length_succ _ _, drop_length_succ _ _⟩

/-- What is left of the text of a record without one of its segments. -/
theorem render_set_none_of_trail {l : Landmark} {t : Segment l} :
    (r.trail l = [] → trimEnd (r.lead l ++ [' ']) = (r.set l none).render) ∧
      (r.trail l ≠ [] → r.lead l ++ [' '] ++
        (t.text ++ joined (r.trail l)).drop (t.text.length + 1) = (r.set l none).render) := by
  rw [render_set_none]
  constructor
  · intro h
    rw [h, trimEnd_append_blank, (r.endsClean_lead l).trimEnd_eq, joined_nil, List.append_nil]
  · intro h
    cases htrail : r.trail l with
    | nil => exact absurd htrail h
    | cons p ps => rw [joined_cons, drop_length_succ, List.append_assoc, List.singleton_append]

theorem removeOrder_render : removeOrder r.render = (r.set (.clause .order) none).render := by
  rw [removeOrder, r.position?_render]
  cases h : r.segment (.clause .order) with
  | none =>
      rw [r.set_none_of_none h]
      rfl
  | some t =>
      obtain ⟨htake, hdrop⟩ := r.take_drop_render h
      have hfirst := r.firstPosition?_segment (c := .order) (by decide) t
      obtain ⟨hend, hmiddle⟩ := r.render_set_none_of_trail (t := t)
      simp only [Option.map_some, r.endsClean_render.trimTerminator_eq]
      rw [htake, hdrop, hfirst]
      cases htrail : r.trail (.clause .order) with
      | nil => exact hend htrail
      | cons p ps =>
          rw [htrail] at hmiddle
          exact hmiddle (List.cons_ne_nil p ps)

theorem removeLimit_render : removeLimit r.render = (r.set (.clause .limit) none).render := by
  rw [removeLimit, r.position?_render]
  cases h : r.segment (.clause .limit) with
  | none =>
      rw [r.set_none_of_none h]
      rfl
  | some t =>
      obtain ⟨htake, hdrop⟩ := r.take_drop_render h
      have hfirst := r.firstPosition?_segment (c := .limit) (by decide) t
      have hread := (isRowLimit_iff t.text).mp (t.rowLimit rfl)
      obtain ⟨hend, hmiddle⟩ := r.render_set_none_of_trail (t := t)
      simp only [Option.map_some, r.endsClean_render.trimTerminator_eq]
      rw [htake, hdrop, hfirst]
      cases htrail : r.trail (.clause .limit) with
      | nil =>
          rw [joined_nil, List.append_nil]
          simp only [List.head?_nil, Option.map_none, hread]
          exact hend htrail
      | cons p ps =>
          rw [htrail] at hmiddle
          exact hmiddle (List.cons_ne_nil p ps)

end Record

/-! ## Adding a condition -/

/-- The text behind the word of a filter, with the segments behind it, splits into the predicate
and these segments. -/
theorem splitPredicate_joined (f : Segment (.clause .filter))
    (hps : ∀ p ∈ ps, p.1 ∈ Clause.after .filter) :
    (ps = [] ∧ splitPredicate (f.predicate ++ joined ps) = (f.predicate, [])) ∨
      ∃ tail, joined ps = ' ' :: tail ∧ tail ≠ [] ∧
        splitPredicate (f.predicate ++ joined ps) = (f.predicate ++ [' '], tail) := by
  have hquiet : ∀ q ∈ occurrences f.predicate, q.1 ∉ Clause.after .filter := by
    rw [f.occurrences_predicate]
    simp
  have hfirst := firstPosition?_joined f.closed_predicate hquiet hps
  cases ps with
  | nil =>
      refine Or.inl ⟨rfl, ?_⟩
      rw [splitPredicate, hfirst]
      simp
  | cons p ps =>
      refine Or.inr ⟨p.2.text ++ joined ps, joined_cons p ps, by simp [p.2.text_ne_nil], ?_⟩
      rw [splitPredicate, hfirst]
      rw [joined_cons]
      change ((f.predicate ++ ' ' :: (p.2.text ++ joined ps)).take (f.predicate.length + 1),
        (f.predicate ++ ' ' :: (p.2.text ++ joined ps)).drop (f.predicate.length + 1)) = _
      rw [take_length_succ, drop_length_succ]

/-- A blank behind a closed text adds no `OR`. -/
theorem or_position?_append_blank (hs : Closed s) :
    (Keyword.or.position? (s ++ [' '])).isNone = (Keyword.or.position? s).isNone := by
  rw [Bool.eq_iff_iff, or_position?_isNone_iff, or_position?_isNone_iff,
    wordMarks_disjunctions.places_seam hs.level fresh_nil]
  simp [places, placesFrom]

theorem trim_append_blank (s : Text) : trim (s ++ [' ']) = trim s := by
  rw [trim, trim, trimStart_append_eq]
  split
  · next h => rw [h]; rfl
  · rw [trimEnd_append_blank]

/-- A condition joined to the text behind the word of a filter goes in front of the predicate. -/
theorem joinCondition_joined (f : Segment (.clause .filter))
    (hps : ∀ p ∈ ps, p.1 ∈ Clause.after .filter) (condition : Text) :
    joinCondition condition (f.predicate ++ joined ps) =
      ' ' :: (condition ++ ' ' :: conjunct f.predicate) ++ joined ps := by
  rcases splitPredicate_joined f hps with ⟨rfl, hsplit⟩ | ⟨tail, htail, hne, hsplit⟩
  · simp only [joinCondition, hsplit, conjunct]
    split <;> simp
  · have hempty : tail.isEmpty = false := by simpa using hne
    rw [htail] at hsplit ⊢
    simp only [joinCondition, hsplit, conjunct, hempty,
      or_position?_append_blank f.closed_predicate, trim_append_blank]
    split <;> simp

theorem length_filter_append (f : Segment (.clause .filter)) (ps : List (Σ l, Segment l)) :
    Clause.filter.keyword.length (f.text ++ joined ps) = 5 := by
  obtain ⟨hspells, hpredicate⟩ := f.spells_spelling
  have hnext : nextIs (fun c => isNameCharAnyCase c || c == '.') (f.predicate ++ joined ps) =
      false := by
    by_cases hne : f.predicate = []
    · rw [hne, List.nil_append]
      cases ps with
      | nil => rfl
      | cons p ps => exact nextIs_name_blank _
    · rwa [nextIs_append_of_ne_nil _ hne]
  rw [← f.spelling_append_predicate, List.append_assoc, length_filter hspells hnext,
    f.length_spelling]

/-- Whether a query begins with `SELECT` is decided in front of two texts that cannot be told
apart. -/
theorem isSelect_cut {t t' : Text} (h : Alike s t t') (hne : trimStart s ≠ []) :
    isSelect (s ++ t) = isSelect (s ++ t') := by
  have hsuffix := trimStart_suffix s
  have hword : "SELECT".toList ∈ vocabulary := by decide
  have hleft := localAt_readWord h.left hword hsuffix hne
  have hright := localAt_readWord h.right hword hsuffix hne
  rw [isSelect, isSelect, trimStart_append_eq, trimStart_append_eq, if_neg hne, if_neg hne, hleft,
    hright]
  cases hread : readWord "SELECT".toList (trimStart s) with
  | none => rfl
  | some rest =>
      obtain ⟨word, htext, hword⟩ := readWord_eq_some_iff.mp hread
      simp only [Option.map_some, continuesWord_eq]
      by_cases hrest : rest = []
      · subst hrest
        rw [List.append_nil] at htext
        rw [htext] at hsuffix
        have hend := (hword.endsInWord (by decide)).of_suffix hsuffix
        rw [List.nil_append, List.nil_append, h.name hend]
      · rw [nextIs_append_of_ne_nil _ hrest, nextIs_append_of_ne_nil _ hrest]

namespace Record

variable (r : Record)

/-- A condition in front of the predicate of the record, or as its only predicate. -/
def addCondition (condition : Fragment) : Record :=
  r.set (.clause .filter) (some (match r.segment (.clause .filter) with
    | some f => f.conjoin condition
    | none => .filter condition))

theorem addCondition_render (condition : Fragment) :
    Sql.addCondition condition.text r.render = (r.addCondition condition).render := by
  have hempty : (r.render.isEmpty || condition.text.isEmpty) = false := by
    simp [r.render_ne_nil, condition.nonempty]
  rw [Sql.addCondition, hempty, if_neg (by simp), addCondition]
  simp only [r.endsClean_render.trimTerminator_eq, r.position?_render]
  cases h : r.segment (.clause .filter) with
  | none => exact r.insertBefore_render (c := .filter) (by decide) h (.filter condition)
  | some f =>
      have hps := r.mem_after_of_mem_trail (c := .filter) (by decide)
      have hrender : r.render = r.lead (.clause .filter) ++
          ' ' :: (f.text ++ joined (r.trail (.clause .filter))) := r.render_of_some h
      have hsplit : r.lead (.clause .filter) ++ ' ' :: (f.text ++
          joined (r.trail (.clause .filter))) = (r.lead (.clause .filter) ++ ' ' :: f.spelling) ++
          (f.predicate ++ joined (r.trail (.clause .filter))) := by
        simp [← f.spelling_append_predicate]
      rw [render_set_some, joined_cons, Option.map_some]
      dsimp only
      rw [(r.take_drop_render h).2, length_filter_append, hrender]
      have hlength : (r.lead (.clause .filter)).length + 1 + 5 =
          (r.lead (.clause .filter) ++ ' ' :: f.spelling).length := by
        rw [List.length_append, List.length_cons, f.length_spelling]
      rw [hsplit, hlength, List.take_left, List.drop_left, joinCondition_joined f hps]
      simp [Segment.conjoin]

/-! ## Orders and limits of a record -/

def removeOrder : Record := r.set (.clause .order) none

def setOrder (column : Column) (direction : Fragment) : Record :=
  r.set (.clause .order) (some (.order column direction))

/-- Whether the record has no `GROUP BY` and calls an aggregate in its projection. -/
def isPlainAggregate : Bool :=
  (r.segment (.clause .group)).isNone && (projection? r.render).any callsAggregate

/-- An order is put into a record that has none, unless it is a plain aggregate. -/
def injectOrder (column : Column) (direction : Fragment) : Record :=
  if (r.segment (.clause .order)).isNone && !r.isPlainAggregate then r.setOrder column direction
  else r

def removeLimit : Record := r.set (.clause .limit) none

/-- A limit that is not positive is not set. -/
def setLimit (n : Int) : Record :=
  if hn : 0 < n then r.set (.clause .limit) (some (.limit n hn)) else r

/-- A limit is put into a record that has none and whose head begins with `SELECT`. -/
def injectLimit (n : Int) : Record :=
  if (r.segment (.clause .limit)).isNone && isSelect r.head.text then r.setLimit n else r

theorem setOrder_render (column : Column) (direction : Fragment) :
    Sql.setOrder column.name direction.text r.render = (r.setOrder column direction).render := by
  have hempty : (r.render.isEmpty || column.name.isEmpty) = false := by
    simp [r.render_ne_nil, column.nonempty]
  rw [Sql.setOrder, hempty, if_neg (by simp), r.endsClean_render.trimTerminator_eq,
    removeOrder_render]
  exact r.insertBefore_set_none (c := .order) (by decide) (.order column direction)

theorem setLimit_render (n : Int) : Sql.setLimit n r.render = (r.setLimit n).render := by
  have hempty : r.render.isEmpty = false := by simp [r.render_ne_nil]
  rw [Sql.setLimit, setLimit, hempty, Bool.false_or]
  by_cases hn : 0 < n
  · have hpositive : (Limit.whole n).isPositive = true := decide_eq_true hn
    rw [dif_pos hn, hpositive, if_neg (by simp), r.endsClean_render.trimTerminator_eq,
      removeLimit_render]
    exact r.insertBefore_set_none (c := .limit) (by decide) (.limit n hn)
  · have hpositive : (Limit.whole n).isPositive = false := decide_eq_false hn
    rw [dif_neg hn, hpositive, if_pos (by simp)]

theorem hasClause_render (c : Clause) :
    hasClause c r.render = (r.segment (.clause c)).isSome := by
  rw [hasClause, r.position?_render, Option.isSome_map]

theorem isPlainAggregate_render : Sql.isPlainAggregate r.render = r.isPlainAggregate := by
  rw [Sql.isPlainAggregate, isPlainAggregate, r.position?_render, Option.isNone_map]
  cases projection? r.render <;> rfl

theorem injectOrder_render (column : Column) (direction : Fragment) :
    Sql.injectOrder column.name direction.text r.render =
      (r.injectOrder column direction).render := by
  have hempty : (r.render.isEmpty || column.name.isEmpty) = false := by
    simp [r.render_ne_nil, column.nonempty]
  have htakes : takesOrder column.name r.render =
      ((r.segment (.clause .order)).isNone && !r.isPlainAggregate) := by
    obtain ⟨hsql, hcolumn⟩ := Bool.or_eq_false_iff.mp hempty
    rw [takesOrder, orderSkip?, hempty, hsql, hcolumn, hasClause_render, isPlainAggregate_render]
    cases r.segment (.clause .order) <;> cases r.isPlainAggregate <;> rfl
  rw [Sql.injectOrder, htakes, injectOrder, r.endsClean_render.trimTerminator_eq]
  split
  · next h =>
      have hnone : r.segment (.clause .order) = none :=
        Option.isNone_iff_eq_none.mp (Bool.and_eq_true_iff.mp h).1
      exact r.insertBefore_render (c := .order) (by decide) hnone (.order column direction)
  · rfl

/-- What a record begins with is in its head. -/
theorem isSelect_render : isSelect r.render = isSelect r.head.text := by
  rw [render]
  cases r.segments r.order with
  | nil => rw [joined_nil, List.append_nil]
  | cons p ps =>
      have hhead := r.head.clean.trimStart_ne_nil r.head.nonempty
      simpa [joined_cons] using
        isSelect_cut (alike_seam (p.2.fresh (joined ps)) r.head.text) hhead

theorem injectLimit_render (n : Int) :
    Sql.injectLimit n r.render = (r.injectLimit n).render := by
  have hempty : r.render.isEmpty = false := by simp [r.render_ne_nil]
  have htakes : takesLimit n r.render = (decide (0 < n) &&
      ((r.segment (.clause .limit)).isNone && isSelect r.head.text)) := by
    rw [takesLimit, limitSkip?, hempty, hasClause_render, isSelect_render]
    cases hn : (Limit.whole n).isPositive <;> cases r.segment (.clause .limit) <;>
      cases isSelect r.head.text <;> simp_all [Limit.isPositive]
  rw [Sql.injectLimit, htakes, injectLimit, setLimit, r.endsClean_render.trimTerminator_eq]
  by_cases hn : 0 < n
  · rw [decide_eq_true hn, Bool.true_and, dif_pos hn]
    split
    · next h =>
        have hnone : r.segment (.clause .limit) = none :=
          Option.isNone_iff_eq_none.mp (Bool.and_eq_true_iff.mp h).1
        exact r.insertBefore_render (c := .limit) (by decide) hnone (.limit n hn)
    · rfl
  · rw [decide_eq_false hn, Bool.false_and, dif_neg hn, ite_self, if_neg (by simp)]

end Record

/-! ## Runs of edits -/

/-- An edit of a query with what is written into it. -/
inductive Edit
  | addCondition (condition : Fragment)
  | removeOrder
  | setOrder (column : Column) (direction : Fragment)
  | injectOrder (column : Column) (direction : Fragment)
  | removeLimit
  | setLimit (n : Int)
  | injectLimit (n : Int)

namespace Edit

/-- The edit on the text of a query. -/
def rewrite : Edit → Text → Text
  | addCondition condition => Sql.addCondition condition.text
  | removeOrder => Sql.removeOrder
  | setOrder column direction => Sql.setOrder column.name direction.text
  | injectOrder column direction => Sql.injectOrder column.name direction.text
  | removeLimit => Sql.removeLimit
  | setLimit n => Sql.setLimit n
  | injectLimit n => Sql.injectLimit n

/-- The edit on the segments of a record. -/
def apply : Edit → Record → Record
  | addCondition condition, r => r.addCondition condition
  | removeOrder, r => r.removeOrder
  | setOrder column direction, r => r.setOrder column direction
  | injectOrder column direction, r => r.injectOrder column direction
  | removeLimit, r => r.removeLimit
  | setLimit n, r => r.setLimit n
  | injectLimit n, r => r.injectLimit n

theorem rewrite_render (e : Edit) (r : Record) : e.rewrite r.render = (e.apply r).render := by
  cases e with
  | addCondition condition => exact r.addCondition_render condition
  | removeOrder => exact r.removeOrder_render
  | setOrder column direction => exact r.setOrder_render column direction
  | injectOrder column direction => exact r.injectOrder_render column direction
  | removeLimit => exact r.removeLimit_render
  | setLimit n => exact r.setLimit_render n
  | injectLimit n => exact r.injectLimit_render n

/-- A run of edits on the text of a record gives the text of the record that the same run of edits
on its segments gives. -/
theorem foldl_rewrite_render (edits : List Edit) (r : Record) :
    edits.foldl (fun sql e => e.rewrite sql) r.render =
      (edits.foldl (fun r e => e.apply r) r).render := by
  induction edits generalizing r with
  | nil => rfl
  | cons e edits ih => rw [List.foldl_cons, List.foldl_cons, e.rewrite_render r, ih]

end Edit

end QuerySplice.Sql
