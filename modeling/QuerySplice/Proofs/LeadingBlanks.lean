import QuerySplice.Proofs.Aggregates
import QuerySplice.Proofs.Agreements
import QuerySplice.Proofs.Connectives
import QuerySplice.Proofs.Outcomes

/-!
# Blanks in front of a query

Blanks in front of a query move its clauses and change nothing else about it. So a statement runs
with the same processors, fails by the same fault and delivers the same table whatever blanks stand
in front of it, and so do the pages of its result.
-/

namespace QuerySplice

open Text QuerySplice.Action

namespace Sql

variable {gap s t : Text} {c : Clause}

/-! ## What is found in the query -/

theorem hasClause_blank_append (hg : Blank gap) (s : Text) :
    hasClause c (gap ++ s) = hasClause c s := by
  rw [Bool.eq_iff_iff, hasClause_iff, hasClause_iff, occurrences,
    wordMarks_landmarks.places_blank_append hg, map_fst_shift]
  rfl

theorem projection?_blank_append (hg : Blank gap) (s : Text) :
    projection? (gap ++ s) = projection? s := by
  rw [projection?_eq, projection?_eq, wordMarks_bounds.places_blank_append hg, span?_shift,
    Option.map_map]
  exact Option.map_congr fun r _ => slice_append_add gap s r

theorem isPlainAggregate_blank_append (hg : Blank gap) (s : Text) :
    isPlainAggregate (gap ++ s) = isPlainAggregate s := by
  rw [isPlainAggregate_eq, isPlainAggregate_eq, hasClause_blank_append hg,
    projection?_blank_append hg]

/-- The queries differ in the blanks in front of them at most. -/
structure SameQuery (s t : Text) : Prop where
  trimStart_eq : trimStart s = trimStart t
  isEmpty_eq : s.isEmpty = t.isEmpty

theorem SameQuery.refl (s : Text) : SameQuery s s := ⟨rfl, rfl⟩

theorem hasClause_trimStart (s : Text) : hasClause c (trimStart s) = hasClause c s := by
  obtain ⟨gap, hs, hg⟩ := exists_blank_append s
  conv_rhs => rw [hs, hasClause_blank_append hg]

theorem isPlainAggregate_trimStart (s : Text) :
    isPlainAggregate (trimStart s) = isPlainAggregate s := by
  obtain ⟨gap, hs, hg⟩ := exists_blank_append s
  conv_rhs => rw [hs, isPlainAggregate_blank_append hg]

theorem SameQuery.takesOrder_eq (h : SameQuery s t) (column : Text) :
    takesOrder column s = takesOrder column t := by
  have hclause : hasClause .order s = hasClause .order t := by
    rw [← hasClause_trimStart s, h.trimStart_eq, hasClause_trimStart]
  have haggregate : isPlainAggregate s = isPlainAggregate t := by
    rw [← isPlainAggregate_trimStart s, h.trimStart_eq, isPlainAggregate_trimStart]
  rw [takesOrder, takesOrder, orderSkip?, orderSkip?, h.isEmpty_eq, hclause, haggregate]

end Sql

open Sql

variable {s t : Text}

theorem Sql.SameQuery.ofOrder_eq (h : SameQuery s t) (column : Value) (direction : Sql.Order) :
    Processor.ofOrder column direction s = Processor.ofOrder column direction t := by
  rw [Processor.ofOrder, Processor.ofOrder, h.takesOrder_eq]

theorem Sql.SameQuery.isBlankStatement_eq (h : SameQuery s t) :
    Shell.isBlankStatement s = Shell.isBlankStatement t := by
  have htrim : trim s = trim t := congrArg trimEnd h.trimStart_eq
  rw [Shell.isBlankStatement, Shell.isBlankStatement, htrim]

theorem Sql.SameQuery.page_eq (h : SameQuery s t) (b : Browser) (time : Time.Stamp)
    (direction : Text) (row : List (Text × Value)) :
    b.page s time direction row = b.page t time direction row := by
  unfold Browser.page Sql.PageRequest.page?
  rw [h.isEmpty_eq]

/-! ## Sources and executors -/

namespace Source

variable (source : Source)

/-- What is sent decides nothing. -/
theorem agree_send (link : Nat) (statement other : Value) :
    Agree Eq (source.send link statement) (source.send link other) := by
  intro w trace
  rw [perform_send, perform_send]
  exact sameEnd_eq _ (sent link statement w) _

theorem agree_openLink : Agree Eq source.openLink source.openLink := by
  intro w trace
  simp only [openLink, perform_bind, perform_get, perform_set, perform_emit]
  rcases w.database.connect with ⟨message | link, db⟩
  · exact .error
  · exact .ok rfl

theorem agree_connect : Agree (fun _ _ => True) source.connect source.connect := by
  unfold connect
  refine agree_bind (agree_emit _ _) fun _ _ _ => ?_
  refine agree_bind_eq source.agree_openLink fun link => ?_
  refine agree_bind (agree_modify fun _ _ => rfl) fun _ _ _ => ?_
  refine agree_bind (agree_forM fun statement => ?_) fun _ _ _ => ?_
  · exact agree_bind (source.agree_send link statement statement) fun _ _ _ => agree_pure trivial
  · exact agree_bind (agree_modify fun _ _ => rfl) fun _ _ _ => agree_emit _ _

theorem agree_ensureConnected :
    Agree (fun _ _ => True) source.ensureConnected source.ensureConnected := by
  intro w trace
  rw [perform_ensureConnected, perform_ensureConnected]
  split
  · exact .ok trivial
  · exact source.agree_connect w trace

/-- A query is answered from the script, whatever its text. -/
theorem agree_query (s t : Text) : Agree Eq (source.query s) (source.query t) := by
  unfold query
  refine agree_bind source.agree_ensureConnected fun _ _ _ => ?_
  refine agree_bind (agree_emit _ _) fun _ _ _ => ?_
  refine agree_bind agree_get fun w w' hw => ?_
  rw [show w'.link = w.link by rw [hw]]
  cases w.link with
  | none => exact agree_pure rfl
  | some link =>
      refine agree_bind_eq (source.agree_send link _ _) fun fetch => ?_
      exact agree_liftM fetch

end Source

namespace Executor

theorem shows_logPreparation (x : Executor) (sql : Text) : Shows (x.logPreparation sql) :=
  shows_forM fun _ => shows_emit _

/-- Puts into the log what is known of the last query before it runs. -/
def announce (x : Executor) (id : Int) : Action Unit := do
  x.logPreparation x.last.given
  if x.last.changed then
    Action.log logger Log.info ("Rewrote query: ".toList ++ x.last.query)
      [("query_id".toList, .int id)]

theorem shows_announce (x : Executor) (id : Int) : Shows (x.announce id) := by
  refine shows_bind (x.shows_logPreparation _) ?_
  split
  · exact shows_emit _
  · exact shows_pure

theorem run_eq (x : Executor) (source : Source) :
    x.run source = (do
      let id := (← get).queries + 1
      modify fun w => { w with queries := id }
      x.announce id
      let t ← source.query x.last.query
      Action.log logger Log.debug
        ("Query returned ".toList ++ natText t.rows.length ++ " row(s)".toList)
        [("query_id".toList, .int id)]
      return x.processors.foldr (fun p t => p.after t) t) := by
  unfold run announce
  cases x.last.changed <;>
    simp only [if_true, if_false, Bool.false_eq_true, bind_assoc, pure_bind]

/-- Executors with the same processors agree, whatever they run. -/
theorem agree_run {x y : Executor} (h : x.processors = y.processors) (source : Source) :
    Agree Eq (x.run source) (y.run source) := by
  rw [run_eq, run_eq]
  refine agree_bind agree_get fun w w' hw => ?_
  rw [show w'.queries = w.queries by rw [hw]]
  refine agree_bind (agree_modify fun _ _ => rfl) fun _ _ _ => ?_
  refine agree_bind ((x.shows_announce _).agree (y.shows_announce _)) fun _ _ _ => ?_
  refine agree_bind_eq (source.agree_query _ _) fun t => ?_
  refine agree_bind (agree_emit _ _) fun _ _ _ => ?_
  rw [h]
  exact agree_pure rfl

end Executor

theorem Browser.agree_fetch (hst : SameQuery s t) (b : Browser) (source : Source)
    (time : Time.Stamp) (direction : Text) (row : List (Text × Value)) :
    Agree Eq (b.fetch source s time direction row) (b.fetch source t time direction row) := by
  unfold fetch
  rw [hst.page_eq]
  refine agree_bind_eq (agree_liftM _) fun page => ?_
  have hprocessors : ((Executor.ofProcessors [.page page]).prepare s).processors =
      ((Executor.ofProcessors [.page page]).prepare t).processors := rfl
  exact Executor.agree_run hprocessors source

/-! ## Shells -/

namespace Shell

variable {sh sh' : Shell}

/-- What is kept differs in the blanks in front of the statement at most. -/
def SameLast : Option (Text × Table) → Option (Text × Table) → Prop :=
  Option.Rel fun a b => SameQuery a.1 b.1 ∧ a.2 = b.2

/-- The other shell differs in the blanks in front of the last statement at most. -/
inductive Same (sh : Shell) : Shell → Prop
  | mk (last : Option (Text × Table)) (h : SameLast sh.last last) : Same sh { sh with last }

theorem Same.refl (sh : Shell) : Same sh sh := by
  refine .mk sh.last ?_
  cases sh.last with
  | none => exact .none
  | some done => exact .some ⟨SameQuery.refl _, rfl⟩

theorem agree_display (t : Table) : Agree (fun _ _ => True) (display t) (display t) := by
  refine agree_bind agree_get fun w w' hw => ?_
  rw [show w'.elapsed = w.elapsed by rw [hw]]
  refine agree_bind_eq (agree_liftM _) fun lines => ?_
  exact (shows_forM fun _ => shows_emit _).agree (shows_forM fun _ => shows_emit _)

theorem agree_processors (h : Same sh sh') (hst : SameQuery s t) :
    Agree Eq (sh.processors s) (sh'.processors t) := by
  obtain ⟨last, -⟩ := h
  unfold processors
  simp only [hst.ofOrder_eq]
  refine agree_bind_eq (agree_mapM fun _ => agree_liftM _) fun order => ?_
  refine agree_tryCatch ?_ fun fault => ?_
  · refine agree_bind_eq (agree_liftM _) fun limit => ?_
    exact agree_pure rfl
  · exact agree_bind
      ((Executor.shows_logPreparation _ s).agree (Executor.shows_logPreparation _ t))
      fun _ _ _ => agree_throw fault

theorem agree_attempt (h : Same sh sh') {x y : Executor} (hxy : x.processors = y.processors) :
    Agree Eq (sh.attempt x) (sh'.attempt y) := by
  obtain ⟨last, -⟩ := h
  refine agree_bind_eq (Executor.agree_run hxy sh.source) fun t => ?_
  refine agree_bind (R := fun _ _ => True) ?_ fun _ _ _ => agree_pure rfl
  unfold present
  cases sh.showQuery with
  | true => exact agree_bind (agree_emit _ _) fun _ _ _ => agree_display t
  | false => exact agree_display t

/-- A statement does the same whatever blanks stand in front of it. -/
theorem agree_runStatement (h : Same sh sh') (hst : SameQuery s t) :
    Agree Same (sh.runStatement s) (sh'.runStatement t) := by
  cases hblank : isBlankStatement s with
  | true =>
      have hblank' : isBlankStatement t = true := hst.isBlankStatement_eq ▸ hblank
      rw [runStatement_of_blank hblank, runStatement_of_blank hblank']
      exact agree_pure h
  | false =>
      have hblank' : isBlankStatement t = false := hst.isBlankStatement_eq ▸ hblank
      rw [runStatement_of_not_blank hblank, runStatement_of_not_blank hblank']
      refine agree_bind_eq (agree_processors h hst) fun ps => ?_
      have hprepared : (prepared ps s).processors = (prepared ps t).processors := rfl
      refine agree_tryCatch ?_ fun fault => ?_
      · refine agree_bind_eq (agree_attempt h hprepared) fun table => ?_
        obtain ⟨last, -⟩ := h
        exact agree_pure (.mk (some (t, table)) (.some ⟨hst, rfl⟩))
      · split
        · exact agree_bind (agree_emit _ _) fun _ _ _ => agree_pure h
        · exact agree_throw fault

/-- The pages of a last result are the same whatever blanks stand in front of its statement. -/
theorem agree_showPage (h : Same sh sh') (index : Nat) (direction : Text) :
    Agree (fun _ _ => True) (sh.showPage index direction) (sh'.showPage index direction) := by
  obtain ⟨last, hlast⟩ := h
  unfold showPage
  generalize sh.last = kept at hlast ⊢
  cases hlast with
  | none => exact agree_emit _ _
  | @some a b hab =>
      obtain ⟨sql, t⟩ := a
      obtain ⟨sql', t'⟩ := b
      obtain ⟨hsql, rfl⟩ := hab
      dsimp only
      cases t.rows[index]? with
      | none => exact agree_emit _ _
      | some row =>
          refine agree_bind_eq (agree_liftM _) fun field => ?_
          split
          · exact agree_reporting
              (agree_bind_eq (sh.browser.agree_fetch hsql _ _ _ _) agree_display)
          · exact agree_emit _ _

theorem agree_runShortcut (h : Same sh sh') (line : Text) :
    Agree Same (sh.runShortcut line) (sh'.runShortcut line) := by
  unfold runShortcut
  cases Shortcut.ofLine line with
  | toggleQuery =>
      obtain ⟨last, hlast⟩ := h
      exact agree_bind (agree_emit _ _) fun _ _ _ => agree_pure (.mk last hlast)
  | setLimit digits =>
      refine agree_bind_eq (agree_liftM _) fun limit => ?_
      obtain ⟨last, hlast⟩ := h
      exact agree_bind (agree_emit _ _) fun _ _ _ => agree_pure (.mk last hlast)
  | showPage digits direction =>
      refine agree_bind_eq (agree_liftM _) fun index => ?_
      have hdirection : sh'.pageDirection = sh.pageDirection := by
        cases h
        rfl
      rw [hdirection]
      exact agree_bind (agree_showPage h _ _) fun _ _ _ => agree_pure h
  | unknown =>
      refine agree_bind (agree_emit _ _) fun _ _ _ => ?_
      exact agree_bind (agree_emit _ _) fun _ _ _ => agree_pure h

end Shell

end QuerySplice
