import QuerySplice.Sql.Page
import QuerySplice.Proofs.Edits

/-!
# Pages of records

A page adds the bound on the time to a query, then the condition of each filter, and replaces the
order and the limit. On the text of a record every step finds a record again. The predicate of the
query is put in parentheses at the first step if it has a top-level `OR`; no condition of a page
has one, so no later step does it again, and the conditions stand in front of the predicate in the
opposite order of their adding.
-/

namespace QuerySplice.Sql

open Text

variable {s : Text}

/-- A text in which no top-level `OR` stands. -/
def HasNoOr (s : Text) : Prop := (Keyword.or.position? s).isNone = true

instance (s : Text) : Decidable (HasNoOr s) := inferInstanceAs (Decidable (_ = true))

theorem hasNoOr_iff (s : Text) : HasNoOr s ↔ places disjunctions s = [] :=
  or_position?_isNone_iff s

/-! ## The conditions of a page -/

theorem Filter.condition_eq (f : Filter) :
    f.condition = quoteName f.column ++ ' ' :: ("=".toList ++ ' ' :: quoteLiteral f.value) := by
  have hwords : " = ".toList = ' ' :: ("=".toList ++ [' ']) := by decide
  calc
    f.condition = quoteName f.column ++ " = ".toList ++ quoteLiteral f.value := rfl
    _ = _ := by
      rw [hwords]
      simp only [List.append_assoc, List.cons_append, List.nil_append]

section Conditions

variable {α : Type} {words : List Text} {marks : Text → List α} (hm : WordMarks words marks)

include hm

/-- Nothing stands in a bound on the time but what stands in its expression. -/
theorem WordMarks.places_timeBound (column : Column) (direction : Direction)
    (hs : places marks s = []) : places marks (timeBound column.name s direction) = [] := by
  have hcomparison : Closed direction.comparison ∧
      direction.comparison.any isLetterAnyCase = false := by
    cases direction <;> decide
  have htext : timeBound column.name s direction =
      quoteName column.name ++ ' ' :: (direction.comparison ++ ' ' :: s) := by simp [timeBound]
  rw [htext, quoteName, hm.places_quotedWith_append rfl column.plain,
    hm.places_not_letters_append hcomparison.1 hcomparison.2, hs]
  rfl

/-- Nothing stands in the condition of a filter. -/
theorem WordMarks.places_condition {f : Filter} (hcolumn : '\\' ∉ f.column)
    (hvalue : '\\' ∉ f.value) : places marks f.condition = [] := by
  have hliteral : places marks (quoteLiteral f.value) = [] :=
    placesFrom_eq_nil_of_covers (Scan.covers_quotedWith rfl hvalue rfl)
  rw [f.condition_eq, quoteName, hm.places_quotedWith_append rfl hcolumn,
    hm.places_not_letters_append (by decide) (by decide), hliteral]
  rfl

end Conditions

namespace Fragment

/-- The bound on the time as a condition. -/
def timeBound (column : Column) (time : Fragment) (direction : Direction) : Fragment where
  text := Sql.timeBound column.name time.text direction
  nonempty := by simp [Sql.timeBound]
  closed := by
    have hcomparison : Closed direction.comparison := by cases direction <;> decide
    have hclosed := (closed_quotedWith (show isQuoteMark '"' = true from rfl) column.plain).append
      (hcomparison.append time.closed)
    simpa [Sql.timeBound, quoteName] using hclosed
  quiet := wordMarks_landmarks.places_timeBound column direction time.quiet
  clean := by
    have hclean : EndsClean (quoteName column.name ++ ' ' :: direction.comparison ++ [' '] ++
        time.text) := (endsClean_append_iff time.nonempty _).mpr time.clean
    simpa [Sql.timeBound] using hclean

/-- The condition of a filter without backslashes. -/
def ofFilter (f : Filter) (hcolumn : '\\' ∉ f.column) (hvalue : '\\' ∉ f.value) : Fragment where
  text := f.condition
  nonempty := by
    rw [f.condition_eq]
    simp
  closed := by
    rw [f.condition_eq]
    exact (closed_quotedWith rfl hcolumn).append
      (Closed.append (by decide) (closed_quotedWith rfl hvalue))
  quiet := wordMarks_landmarks.places_condition hcolumn hvalue
  clean := by
    have hclean : EndsClean ((quoteName f.column ++ ' ' :: ("=".toList ++ ' ' ::
        ('\x27' :: doubled '\x27' f.value))) ++ ['\x27']) :=
      (endsClean_append_iff (by simp) _).mpr (by decide)
    rw [f.condition_eq]
    simpa [quoteLiteral, quotedWith] using hclean

end Fragment

/-! ## Conditions one after another -/

/-- Conditions that all have to hold. -/
def allOf (conditions : List Text) : Text := " AND ".toList.intercalate conditions

theorem allOf_cons {conditions : List Text} (hne : conditions ≠ []) (condition : Text) :
    allOf (condition :: conditions) = condition ++ " AND ".toList ++ allOf conditions := by
  cases conditions with
  | nil => exact absurd rfl hne
  | cons first rest => simp [allOf, List.intercalate]

/-- The text of a filter when conditions stand in front of its predicate, or are all that it
has. -/
def filterText (conditions : List Text) : Option (Segment (.clause .filter)) → Text
  | none => "WHERE ".toList ++ allOf conditions
  | some f => f.spelling ++ ' ' :: (allOf conditions ++ ' ' :: conjunct f.predicate)

namespace Segment

variable (f : Segment (.clause .filter))

theorem conjoin_spelling (condition : Fragment) : (f.conjoin condition).spelling = f.spelling := by
  have htext : (f.conjoin condition).text =
      f.spelling ++ ' ' :: (condition.text ++ ' ' :: conjunct f.predicate) := rfl
  rw [spelling, htext, ← f.length_spelling, List.take_left]

theorem conjoin_predicate (condition : Fragment) :
    (f.conjoin condition).predicate = ' ' :: (condition.text ++ ' ' :: conjunct f.predicate) := by
  have htext : (f.conjoin condition).text =
      f.spelling ++ ' ' :: (condition.text ++ ' ' :: conjunct f.predicate) := rfl
  rw [predicate, htext, ← f.length_spelling, List.drop_left]

/-- Behind a condition without an `OR` no `OR` is left. -/
theorem hasNoOr_conjoin {condition : Fragment} (hc : HasNoOr condition.text) :
    HasNoOr (f.conjoin condition).predicate := by
  rw [hasNoOr_iff] at hc
  have hconjunct : places disjunctions (conjunct f.predicate) = [] :=
    wordMarks_disjunctions.places_conjunct (by decide) f.closed_predicate f.endsClean_predicate
      (nextIs_letter_of_name f.spells_spelling.2) (hasNoOr_iff f.predicate).mp
  rw [hasNoOr_iff, conjoin_predicate, wordMarks_disjunctions.places_blank_cons,
    wordMarks_disjunctions.places_seam condition.closed.level (fresh_conjunct _), hc, hconjunct]
  rfl

theorem hasNoOr_filter {condition : Fragment} (hc : HasNoOr condition.text) :
    HasNoOr (Segment.filter condition).predicate := by
  rw [hasNoOr_iff] at hc ⊢
  rw [show (Segment.filter condition).predicate = ' ' :: condition.text from rfl,
    wordMarks_disjunctions.places_blank_cons, hc]
  rfl

end Segment

namespace Record

variable (r : Record)

/-- Conditions without an `OR` stand in front of a predicate in the opposite order of their
adding, if the predicate has no `OR` either. -/
theorem foldl_addCondition_set {cs : List Fragment} (hcs : ∀ c ∈ cs, HasNoOr c.text)
    {f : Segment (.clause .filter)} (hf : HasNoOr f.predicate) {xs : List Text} (hxs : xs ≠ [])
    {tail : Text} (hpredicate : f.predicate = ' ' :: (allOf xs ++ tail)) :
    ∃ f' : Segment (.clause .filter),
      cs.foldl addCondition (r.set (.clause .filter) (some f)) = r.set (.clause .filter) (some f') ∧
        f'.spelling = f.spelling ∧
        f'.predicate = ' ' :: (allOf ((cs.map Fragment.text).reverse ++ xs) ++ tail) := by
  induction cs generalizing f xs with
  | nil => exact ⟨f, rfl, rfl, hpredicate⟩
  | cons c cs ih =>
      have hc : HasNoOr c.text := hcs c (by simp)
      have hnext : (f.conjoin c).predicate = ' ' :: (allOf (c.text :: xs) ++ tail) := by
        have hconjunct : conjunct f.predicate = "AND".toList ++ f.predicate := if_pos hf
        have hand : " AND ".toList = ' ' :: ("AND".toList ++ [' ']) := by decide
        rw [f.conjoin_predicate, hconjunct, hpredicate, allOf_cons hxs, hand]
        simp only [List.append_assoc, List.cons_append, List.nil_append]
      have hadd : (r.set (.clause .filter) (some f)).addCondition c =
          r.set (.clause .filter) (some (f.conjoin c)) := by
        rw [addCondition, set_self]
        exact r.set_set _ _ _
      obtain ⟨f', hfold, hspelling, htext⟩ := ih (fun d hd => hcs d (by simp [hd]))
        (f.hasNoOr_conjoin hc) (List.cons_ne_nil c.text xs) hnext
      refine ⟨f', ?_, hspelling.trans (f.conjoin_spelling c), ?_⟩
      · rw [List.foldl_cons, hadd, hfold]
      · rw [htext, List.map_cons, List.reverse_cons, List.append_assoc, List.singleton_append]

/-- Conditions without an `OR` that are added to a record stand in front of its predicate. -/
theorem foldl_addCondition_cons {bound : Fragment} (hbound : HasNoOr bound.text)
    {cs : List Fragment} (hcs : ∀ c ∈ cs, HasNoOr c.text) :
    ∃ f : Segment (.clause .filter),
      (bound :: cs).foldl addCondition r = r.set (.clause .filter) (some f) ∧
        f.text = filterText ((cs.map Fragment.text).reverse ++ [bound.text])
          (r.segment (.clause .filter)) := by
  rw [List.foldl_cons, addCondition]
  cases h : r.segment (.clause .filter) with
  | none =>
      have hpredicate : (Segment.filter bound).predicate = ' ' :: (allOf [bound.text] ++ []) := by
        rw [List.append_nil]
        simp [Segment.predicate, Segment.filter, allOf, List.intercalate]
      obtain ⟨f, hfold, hspelling, htext⟩ := r.foldl_addCondition_set hcs
        (Segment.hasNoOr_filter hbound) (List.cons_ne_nil bound.text []) hpredicate
      refine ⟨f, hfold, ?_⟩
      rw [← f.spelling_append_predicate, hspelling, htext, List.append_nil]
      rfl
  | some old =>
      have hpredicate : (old.conjoin bound).predicate =
          ' ' :: (allOf [bound.text] ++ ' ' :: conjunct old.predicate) := by
        simp [old.conjoin_predicate, allOf, List.intercalate]
      obtain ⟨f, hfold, hspelling, htext⟩ := r.foldl_addCondition_set hcs
        (old.hasNoOr_conjoin hbound) (List.cons_ne_nil bound.text []) hpredicate
      refine ⟨f, hfold, ?_⟩
      rw [← f.spelling_append_predicate, hspelling, htext, old.conjoin_spelling]
      rfl

end Record

/-! ## Pages -/

/-- The conditions of the filters with a named column, the last one first. -/
def filterConditions (filters : List Filter) : List Text :=
  ((filters.filter fun f => !f.column.isEmpty).map Filter.condition).reverse

/-- Filters are added to the text of a record as conditions without an `OR`. -/
theorem exists_foldl_addFilter {filters : List Filter}
    (hf : ∀ f ∈ filters, '\\' ∉ f.column ∧ '\\' ∉ f.value) :
    ∃ cs : List Fragment, (cs.map Fragment.text).reverse = filterConditions filters ∧
      (∀ c ∈ cs, HasNoOr c.text) ∧
      ∀ r : Record,
        filters.foldl Page.addFilter r.render = (cs.foldl Record.addCondition r).render := by
  induction filters with
  | nil => exact ⟨[], rfl, by simp, fun r => rfl⟩
  | cons f filters ih =>
      obtain ⟨cs, htexts, hno, hfold⟩ := ih fun g hg => hf g (by simp [hg])
      obtain ⟨hcolumn, hvalue⟩ := hf f (by simp)
      by_cases hempty : f.column.isEmpty = true
      · refine ⟨cs, ?_, hno, fun r => ?_⟩
        · simpa [filterConditions, hempty] using htexts
        · rw [List.foldl_cons, Page.addFilter, if_pos hempty, hfold]
      · refine ⟨Fragment.ofFilter f hcolumn hvalue :: cs, ?_, ?_, fun r => ?_⟩
        · rw [List.map_cons, List.reverse_cons, htexts]
          simp [filterConditions, hempty, Fragment.ofFilter]
        · intro c hc
          rcases List.mem_cons.mp hc with rfl | hc
          · exact (hasNoOr_iff _).mpr (wordMarks_disjunctions.places_condition hcolumn hvalue)
          · exact hno c hc
        · have hadd := r.addCondition_render (Fragment.ofFilter f hcolumn hvalue)
          rw [List.foldl_cons, List.foldl_cons, Page.addFilter, if_neg hempty, ← hfold, ← hadd]
          rfl

/-- A semicolon behind the text of a record makes no difference to an added condition. -/
theorem addCondition_semicolon (r : Record) (condition : Fragment) :
    addCondition condition.text (r.render ++ [';']) = (r.addCondition condition).render := by
  have hempty : (r.render.isEmpty || condition.text.isEmpty) = false := by
    simp [r.render_ne_nil, condition.nonempty]
  have hempty' : ((r.render ++ [';']).isEmpty || condition.text.isEmpty) = false := by
    simp [condition.nonempty]
  rw [← r.addCondition_render, addCondition, addCondition, hempty, hempty', if_neg (by simp),
    if_neg (by simp), r.endsClean_render.trimTerminator_semicolon,
    r.endsClean_render.trimTerminator_eq]

/-- The page of a request whose direction can be read. -/
theorem page?_eq_page (column : Column) (expression : Text) {given : Text} {direction : Direction}
    (hdirection : Direction.read? given = some direction) (n : Int) (filters : List Filter)
    {sql : Text} (hsql : sql ≠ []) :
    (PageRequest.mk (.text column.name) expression given (.int n) filters).page? sql =
      .ok (some ⟨column.name, expression, direction, .whole n, filters⟩) := by
  have hset : (sql.isEmpty || !(Value.text column.name).isSet) = false := by
    simp [hsql, Value.isSet, column.nonempty]
  simp only [PageRequest.page?, hset, PageRequest.page, hdirection]
  rfl

/-- A page of a query that is made of a head and segments, with or without a semicolon behind it,
is made of the same parts but for three. The predicate is the conditions of the filters, the last
one first, the bound on the time, and the predicate of the query, in parentheses if it has a
top-level `OR`; the order is that of the direction on the time column; and the limit is that of the
page. -/
theorem query_page_render (r : Record) (column : Column) {time : Fragment}
    (htime : HasNoOr time.text) {given : Text} {direction : Direction}
    (hdirection : Direction.read? given = some direction) {n : Int} (hn : 0 < n)
    {filters : List Filter} (hfilters : ∀ f ∈ filters, '\\' ∉ f.column ∧ '\\' ∉ f.value)
    {sql : Text} (hsql : sql = r.render ∨ sql = r.render ++ [';']) :
    ∃ (page : Page) (f : Segment (.clause .filter)),
      (PageRequest.mk (.text column.name) time.text given (.int n) filters).page? sql =
        .ok (some page) ∧
      f.text = filterText (filterConditions filters ++
        [timeBound column.name time.text direction]) (r.segment (.clause .filter)) ∧
      page.query sql = (((r.set (.clause .filter) (some f)).set (.clause .order)
        (some (.order column direction.order.fragment))).set (.clause .limit)
        (some (.limit n hn))).render := by
  have hbound : HasNoOr (Fragment.timeBound column time direction).text :=
    (hasNoOr_iff _).mpr
      (wordMarks_disjunctions.places_timeBound column direction ((hasNoOr_iff _).mp htime))
  obtain ⟨cs, htexts, hcs, hfold⟩ := exists_foldl_addFilter hfilters
  obtain ⟨f, hfilter, htext⟩ := r.foldl_addCondition_cons hbound hcs
  have hne : sql ≠ [] := by
    rcases hsql with rfl | rfl
    · exact r.render_ne_nil
    · simp
  have happlies : (!sql.isEmpty && !column.name.isEmpty) = true := by
    simp [hne, column.nonempty]
  have hfirst : addCondition (timeBound column.name time.text direction) sql =
      (r.addCondition (Fragment.timeBound column time direction)).render := by
    rcases hsql with rfl | rfl
    · exact r.addCondition_render (Fragment.timeBound column time direction)
    · exact addCondition_semicolon r (Fragment.timeBound column time direction)
  refine ⟨⟨column.name, time.text, direction, .whole n, filters⟩, f, ?_, ?_, ?_⟩
  · exact page?_eq_page column time.text hdirection n filters hne
  · rw [htext, htexts]
    rfl
  · rw [Page.query, Page.applies, if_pos happlies]
    dsimp only
    rw [hfirst, hfold, ← List.foldl_cons, hfilter]
    have horder := (r.set (.clause .filter) (some f)).setOrder_render column
      direction.order.fragment
    have hlimit := ((r.set (.clause .filter) (some f)).setOrder column
      direction.order.fragment).setLimit_render n
    rw [Record.setLimit, dif_pos hn] at hlimit
    rw [← horder] at hlimit
    exact hlimit

/-- A page in each direction: the old predicate is put in parentheses, the bound on the time and the
order go with the direction, and the old limit is replaced. -/
theorem query_page_bothDirections :
    HasNoOr "now()".toList ∧ (0 : Int) < 2 ∧
      (∀ f ∈ [Filter.mk "s".toList "v".toList], '\\' ∉ f.column ∧ '\\' ∉ f.value) ∧
      ∀ x ∈ [(" Forward", Direction.forward,
            "SELECT a FROM t WHERE \"s\" = 'v' AND \"ts\" >= now()" ++
              " AND (a OR b) ORDER BY \"ts\" ASC LIMIT 2"),
          ("BACKWARD ", Direction.backward,
            "SELECT a FROM t WHERE \"s\" = 'v' AND \"ts\" <= now()" ++
              " AND (a OR b) ORDER BY \"ts\" DESC LIMIT 2")],
        Direction.read? x.1.toList = some x.2.1 ∧
        ∃ (page : Page) (f : Segment (.clause .filter)),
          (PageRequest.mk (.text "ts".toList) "now()".toList x.1.toList (.int 2)
            [⟨"s".toList, "v".toList⟩]).page? (disjunctionWithLimit.render ++ [';']) =
              .ok (some page) ∧
          f.text = filterText (filterConditions [⟨"s".toList, "v".toList⟩] ++
            [timeBound "ts".toList "now()".toList x.2.1])
              (disjunctionWithLimit.segment (.clause .filter)) ∧
          page.query (disjunctionWithLimit.render ++ [';']) =
            (((disjunctionWithLimit.set (.clause .filter) (some f)).set (.clause .order)
              (some (.order ⟨"ts".toList, by decide, by decide⟩ x.2.1.order.fragment))).set
              (.clause .limit) (some (.limit 2 (by decide)))).render ∧
          page.query (disjunctionWithLimit.render ++ [';']) = x.2.2.toList := by
  have hor : HasNoOr "now()".toList := by decide
  have hfilters : ∀ f ∈ [Filter.mk "s".toList "v".toList],
      '\\' ∉ f.column ∧ '\\' ∉ f.value := by decide
  refine ⟨hor, by decide, hfilters, fun x hx => ?_⟩
  let time : Fragment := ⟨"now()".toList, by decide, by decide, by decide, by decide⟩
  let column : Column := ⟨"ts".toList, by decide, by decide⟩
  obtain ⟨hread, htext⟩ : Direction.read? x.1.toList = some x.2.1 ∧
      (Page.mk "ts".toList "now()".toList x.2.1 (.whole 2) [⟨"s".toList, "v".toList⟩]).query
        (disjunctionWithLimit.render ++ [';']) = x.2.2.toList := by
    revert x
    decide +kernel
  obtain ⟨page, f, hpage, hf, hquery⟩ := query_page_render disjunctionWithLimit column
    (show HasNoOr time.text from hor) hread (show (0 : Int) < 2 by decide) hfilters (Or.inr rfl)
  have hne : disjunctionWithLimit.render ++ [';'] ≠ [] :=
    List.append_ne_nil_of_right_ne_nil _ (List.cons_ne_nil _ _)
  have hexplicit := page?_eq_page column time.text hread 2 [⟨"s".toList, "v".toList⟩] hne
  obtain rfl := Option.some.inj (Except.ok.inj (hexplicit.symm.trans hpage))
  exact ⟨hread, _, f, hpage, hf, hquery, htext⟩

end QuerySplice.Sql
