import QuerySplice.Proofs.Drawings
import QuerySplice.Proofs.Executions
import QuerySplice.Proofs.Survival

/-!
# The last result of a shell

A statement completes if it is not blank, its settings can be used, the source can be connected, the
database answers it with a table, and the table can be shown. The shell then has sent one text, the
statement with the automatic order and the automatic limit, and the answer to this text is the table.
A statement that completes is kept together with its table, and nothing else changes what is kept: no
statement that is blank or fails, no shortcut, no page, no interrupt. So in every state that a shell
reaches it keeps the statement that completed most recently, with the answer to it, and a page is made
of a row of this table only.
-/

namespace QuerySplice

open Text QuerySplice.Action

/-! ## Answers -/

theorem World.view_prints (w : World) (texts : List Text) :
    { w with trace := w.trace ++ texts.map Event.print }.view = w.view := by
  have hnone : Trace.requests (texts.map Event.print) = [] := by
    induction texts with
    | nil => rfl
    | cons text texts ih => exact ih
  apply World.view_eq_iff.mpr
  refine ⟨rfl, rfl, rfl, ?_⟩
  rw [requests_append, hnone, List.append_nil]

/-- The table that answers the next query, if the source can be connected and the database returns
one. -/
def Source.answer? (s : Source) (w : World) : Option Table :=
  match s.ensureConnected.perform w with
  | (.ok (), w') => (s.fetched w'.database.execute.1).toOption
  | (.error _, _) => none

theorem Source.elapsed_ensureConnected (s : Source) (w : World) :
    (s.ensureConnected.perform w).2.elapsed = w.elapsed := by
  rw [perform_ensureConnected]
  split
  · rfl
  · have hconnecting := s.connecting w
    generalize s.connect.perform w = outcome at hconnecting ⊢
    cases hconnecting <;> rfl

/-- Every query is timed by the same clock. -/
theorem Executor.meets_run_elapsed (x : Executor) (s : Source) (elapsed : Number.Binary64) :
    Meets (fun w => w.elapsed = elapsed) (fun _ => True) (fun _ => True) (x.run s) := by
  refine meets_run_of (fun _ => meets_modify fun _ hw => hw) (fun _ _ hw => hw) ?_ x
  intro sql w hw
  refine ⟨?_, fun _ _ => trivial, fun _ _ => trivial⟩
  have hensure := s.elapsed_ensureConnected w
  rw [s.perform_query]
  generalize s.ensureConnected.perform w = outcome at hensure ⊢
  rcases outcome with ⟨fault | _, w'⟩
  · exact hensure.trans hw
  · cases hlink : w'.link with
    | none =>
        simp only [hlink]
        exact hensure.trans hw
    | some link =>
        simp only [hlink]
        exact hensure.trans hw

namespace Shell

variable {sh sh' : Shell} {w w' : World} {input : Input} {inputs : List Input} {statement : Text}

/-! ## Automatic order and limit -/

/-- The statement with an order. A column that is not set orders nothing, and one that is no text
cannot be written. -/
def orderedBy (column : Value) (direction : Sql.Order) (statement : Text) : Except Fault Text :=
  if Sql.takesOrder (if column.isSet then column.shown else []) statement then
    column.asName.map fun name => Sql.injectOrder name direction.text statement
  else .ok statement

/-- The text that is run for a statement: the automatic order is injected, if there is one, and then
the automatic limit. -/
def automatic (sh : Shell) (statement : Text) : Except Fault Text := do
  let query ← match sh.order with
    | none => .ok statement
    | some (column, direction) => orderedBy column direction statement
  return Sql.injectLimit (← sh.limit.asLimit) query

theorem apply_ofOrder (column : Value) (direction : Sql.Order) (statement : Text) :
    (∃ p query, Processor.ofOrder column direction statement = .ok p ∧
        orderedBy column direction statement = .ok query ∧ p.apply statement = query ∧
        p.direction? = none) ∨
      ∃ fault, Processor.ofOrder column direction statement = .error fault ∧
        orderedBy column direction statement = .error fault := by
  unfold Processor.ofOrder orderedBy
  dsimp only
  generalize (if column.isSet then column.shown else []) = name
  cases htakes : Sql.takesOrder name statement with
  | true =>
      cases hname : column.asName with
      | ok name => exact Or.inl ⟨_, _, rfl, rfl, rfl, rfl⟩
      | error fault => exact Or.inr ⟨fault, rfl, rfl⟩
  | false =>
      exact Or.inl ⟨_, _, rfl, rfl, Sql.injectOrder_of_not_takes htakes _, rfl⟩

/-- How the processors of a statement are made: they make its automatic text and turn no result
round, or there is no such text. -/
inductive Processing (sh : Shell) (statement : Text) (w : World) :
    Except Fault (List Processor) × World → Prop
  | usable {ps : List Processor}
      (hautomatic : sh.automatic statement = .ok (Processor.composed ps statement))
      (hforward : Processor.backward ps = 0) : Processing sh statement w (.ok ps, w)
  | unusable {fault : Fault} {w' : World} (hautomatic : sh.automatic statement = .error fault) :
      Processing sh statement w (.error fault, w')

/-- The limit goes in behind the order, whatever that made of the statement. -/
theorem processing_limit {order : List Processor} {query : Text}
    (hautomatic : sh.automatic statement =
      sh.limit.asLimit.map fun limit => Sql.injectLimit limit query)
    (hquery : Processor.composed order statement = query) (hforward : Processor.backward order = 0) :
    Processing sh statement w ((tryCatch
      (do return order ++ [.limit (← sh.limit.asLimit)])
      fun fault => do
        (Executor.ofProcessors order).logPreparation statement
        throw fault : Action (List Processor)).perform w) := by
  cases hlimit : sh.limit.asLimit with
  | ok limit =>
      rw [hlimit] at hautomatic
      refine .usable (hautomatic.trans ?_) ?_
      · simp only [← hquery, Processor.composed, List.foldl_append]
        rfl
      · simp only [Processor.backward, List.countP_append] at hforward ⊢
        rw [hforward]
        rfl
  | error fault =>
      obtain ⟨w', hperform, -⟩ :=
        (Executor.ofProcessors order).unseen_logPreparation statement w
      rw [hlimit] at hautomatic
      simp only [perform_tryCatch, perform_bind, perform_liftM, hperform, perform_throw]
      exact .unusable hautomatic

theorem processing (sh : Shell) (statement : Text) (w : World) :
    Processing sh statement w ((sh.processors statement).perform w) := by
  unfold processors
  cases horder : sh.order with
  | none =>
      refine processing_limit ?_ rfl rfl
      rw [automatic, horder]
      cases sh.limit.asLimit <;> rfl
  | some o =>
      obtain ⟨column, direction⟩ := o
      simp only [Option.toList_some, List.mapM_cons, List.mapM_nil, perform_bind, perform_liftM]
      rcases apply_ofOrder column direction statement with
        ⟨p, query, hp, hordered, hquery, hforward⟩ | ⟨fault, hp, hordered⟩
      · simp only [hp, perform_pure]
        refine processing_limit ?_ hquery ?_
        · rw [automatic, horder]
          simp only [hordered]
          cases sh.limit.asLimit <;> rfl
        · simp [Processor.backward, hforward]
      · simp only [hp]
        refine .unusable ?_
        rw [automatic, horder]
        simp only [hordered]
        rfl

theorem usable_of_processors {ps : List Processor}
    (h : (sh.processors statement).perform w = (.ok ps, w')) :
    w' = w ∧ sh.automatic statement = .ok (Processor.composed ps statement) ∧
      Processor.backward ps = 0 := by
  have hprocessing := sh.processing statement w
  rw [h] at hprocessing
  cases hprocessing with
  | usable hautomatic hforward => exact ⟨rfl, hautomatic, hforward⟩

/-! ## Statements that complete -/

/-- The statement with its result, if it completes. -/
def completion? (sh : Shell) (w : World) (statement : Text) : Option (Text × Table) :=
  if isBlankStatement statement ∨ ¬(sh.automatic statement).isOk then none
  else
    match sh.source.answer? w with
    | some t => if t.fault.isNone ∧ w.elapsed.isFinite then some (statement, t) else none
    | none => none

theorem completion?_eq_some {query : Text} {t : Table} (hblank : isBlankStatement statement = false)
    (hautomatic : sh.automatic statement = .ok query) (hanswer : sh.source.answer? w = some t)
    (hshown : t.fault = none ∧ w.elapsed.isFinite = true) :
    sh.completion? w statement = some (statement, t) := by
  simp only [completion?, hblank, hautomatic, hanswer, hshown, Except.isOk, Except.toBool,
    Bool.false_eq_true, not_true_eq_false, or_self, if_false, Option.isNone_none, and_self, if_true]

theorem completion?_eq_none
    (hnone : ∀ t, sh.source.answer? w = some t → ¬(t.fault = none ∧ w.elapsed.isFinite = true)) :
    sh.completion? w statement = none := by
  rw [completion?]
  split
  · rfl
  · cases hanswer : sh.source.answer? w with
    | none => rfl
    | some t => simpa using hnone t hanswer

/-- The world `w'` is left by a statement that delivers the table: the source was connected if it had
to be, the statement with its automatic order and limit was sent on its connection, nothing else was
asked of the database, and its answer is the table. -/
def Delivers (sh : Shell) (w : World) (statement : Text) (t : Table) (w' : World) : Prop :=
  ∃ query w₁ link, sh.automatic statement = .ok query ∧
    sh.source.ensureConnected.perform w = (.ok (), w₁) ∧ w₁.link = some link ∧
    w₁.database.execute.1 = .ok (.ok t) ∧
    w'.view = (Source.sent link (.text query) w₁).view

theorem display_cases (t : Table) (w : World) :
    (t.fault = none ∧ w.elapsed.isFinite = true) ∧
        (∃ w', (display t).perform w = (.ok (), w') ∧ w'.view = w.view) ∨
      ¬(t.fault = none ∧ w.elapsed.isFinite = true) ∧
        ∃ fault, (display t).perform w = (.error fault, w) := by
  rw [perform_display]
  cases hlines : t.lines w.elapsed with
  | ok lines =>
      obtain ⟨hfault, hfinite, -⟩ := Table.lines_eq_ok_iff.mp hlines
      exact Or.inl ⟨⟨hfault, hfinite⟩, _, rfl, w.view_prints lines⟩
  | error fault =>
      refine Or.inr ⟨?_, fault, rfl⟩
      rintro ⟨hfault, hfinite⟩
      have hok := Table.lines_eq_ok_iff.mpr ⟨hfault, hfinite, rfl⟩
      rw [hlines] at hok
      cases hok

/-- A result is presented if it can be shown, and the database sees nothing of it. -/
theorem present_cases (sh : Shell) (x : Executor) (t : Table) (w : World) :
    (t.fault = none ∧ w.elapsed.isFinite = true) ∧
        (∃ w', (sh.present x t).perform w = (.ok (), w') ∧ w'.view = w.view) ∨
      ¬(t.fault = none ∧ w.elapsed.isFinite = true) ∧
        ∃ fault w', (sh.present x t).perform w = (.error fault, w') := by
  unfold present
  cases sh.showQuery with
  | false =>
      rcases display_cases t w with hshown | ⟨hnot, fault, hdisplay⟩
      · exact Or.inl hshown
      · exact Or.inr ⟨hnot, fault, w, hdisplay⟩
  | true =>
      simp only [if_true, perform_bind, print, perform_emit]
      rcases display_cases t { w with trace := w.trace ++ [.print x.last.query] } with
        ⟨hshown, w', hdisplay, hview⟩ | ⟨hnot, fault, hdisplay⟩
      · exact Or.inl ⟨hshown, w', hdisplay, hview.trans (w.view_prints [x.last.query])⟩
      · exact Or.inr ⟨hnot, fault, _, hdisplay⟩

theorem turned_of_forward {ps : List Processor} (h : Processor.backward ps = 0) (t : Table) :
    Processor.turned ps t = t := by
  rw [Processor.turned, h]
  rfl

/-- How an attempt to run a prepared statement ends: in a fault, where the statement has no answer
that can be shown, or in its answer. -/
inductive Attempt (sh : Shell) (w : World) (query : Text) : Except Fault Table × World → Prop
  | failed {fault : Fault} {w' : World}
      (hnone : ∀ t, sh.source.answer? w = some t → ¬(t.fault = none ∧ w.elapsed.isFinite = true)) :
      Attempt sh w query (.error fault, w')
  | answered {t : Table} {w₁ w' : World} {link : Nat}
      (hanswer : sh.source.answer? w = some t) (hfault : t.fault = none)
      (hfinite : w.elapsed.isFinite = true)
      (hconnect : sh.source.ensureConnected.perform w = (.ok (), w₁)) (hlink : w₁.link = some link)
      (hsent : w₁.database.execute.1 = .ok (.ok t))
      (hview : w'.view = (Source.sent link (.text query) w₁).view) :
      Attempt sh w query (.ok t, w')

theorem attempting (sh : Shell) (hw : Source.Steady w) {ps : List Processor}
    (hforward : Processor.backward ps = 0) (statement : Text) :
    Attempt sh w (Processor.composed ps statement)
      ((sh.attempt (prepared ps statement)).perform w) := by
  have hexecutes := (Executor.ofProcessors ps).executes (s := sh.source) hw statement
  have helapsed := ((prepared ps statement).meets_run_elapsed sh.source w.elapsed w rfl).1
  rw [attempt, perform_bind]
  rw [← prepared] at hexecutes
  generalize ((prepared ps statement).run sh.source).perform w = outcome at hexecutes helapsed ⊢
  cases hexecutes with
  | unconnected hconnect hview =>
      refine .failed ?_
      simp [Source.answer?, hconnect]
  | @sent link w₁ w₂ hconnect hlink hview =>
      have hanswer : sh.source.answer? w = (sh.source.fetched w₁.database.execute.1).toOption := by
        rw [Source.answer?, hconnect]
      cases hfetched : sh.source.fetched w₁.database.execute.1 with
      | error fault =>
          refine .failed ?_
          rw [hanswer, hfetched]
          simp [Except.toOption]
      | ok t =>
          rw [hfetched] at hanswer
          have hsent : w₁.database.execute.1 = .ok (.ok t) := by
            cases hreply : w₁.database.execute.1 with
            | error message =>
                rw [hreply] at hfetched
                cases hfetched
            | ok fetch =>
                rw [hreply] at hfetched
                exact congrArg Except.ok hfetched
          have hresult : (Except.ok t).map (Processor.turned (Executor.ofProcessors ps).processors) =
              (.ok t : Except Fault Table) :=
            congrArg Except.ok (turned_of_forward hforward t)
          simp only [hresult, perform_bind]
          rcases sh.present_cases (prepared ps statement) t w₂ with
            ⟨⟨hfault, hfinite⟩, w', hpresent, hview'⟩ | ⟨hnot, fault, w', hpresent⟩
          · simp only [hpresent]
            refine .answered hanswer hfault ?_ hconnect hlink hsent (hview'.trans hview)
            rw [← helapsed]
            exact hfinite
          · simp only [hpresent]
            refine .failed ?_
            intro t' ht'
            rw [hanswer] at ht'
            cases ht'
            rw [← helapsed]
            exact hnot

/-! ## What a shell keeps -/

/-- Running a statement keeps it with its result if it completes, and the shell has then executed it.
Otherwise what is kept stays. -/
theorem last_of_runStatement (hw : Source.Steady w)
    (h : (sh.runStatement statement).perform w = (.ok sh', w')) :
    sh'.last = (sh.completion? w statement).or sh.last ∧
      ∀ done, sh.completion? w statement = some done →
        done.1 = statement ∧ isBlankStatement statement = false ∧ done.2.fault = none ∧
          sh.Delivers w statement done.2 w' := by
  have hrunning := sh.running statement w
  rw [h] at hrunning
  cases hrunning with
  | blank hblank =>
      rw [completion?, hblank]
      refine ⟨rfl, ?_⟩
      rintro done ⟨⟩
  | failed hblank hprocessors hattempt hreported =>
      obtain ⟨rfl, hautomatic, hforward⟩ := usable_of_processors hprocessors
      have hattempting := sh.attempting hw hforward statement
      rw [hattempt] at hattempting
      cases hattempting with
      | failed hnone =>
          rw [completion?_eq_none hnone]
          refine ⟨rfl, ?_⟩
          rintro done ⟨⟩
  | completed hblank hprocessors hattempt =>
      obtain ⟨rfl, hautomatic, hforward⟩ := usable_of_processors hprocessors
      have hattempting := sh.attempting hw hforward statement
      rw [hattempt] at hattempting
      cases hattempting with
      | answered hanswer hfault hfinite hconnect hlink hsent hview =>
          rw [completion?_eq_some hblank hautomatic hanswer ⟨hfault, hfinite⟩]
          refine ⟨rfl, ?_⟩
          rintro done ⟨⟩
          exact ⟨rfl, hblank, hfault, _, _, _, hautomatic, hconnect, hlink, hsent, hview⟩

/-- No shortcut changes what is kept. -/
theorem last_of_runShortcut {line : Text}
    (h : (sh.runShortcut line).perform w = (.ok sh', w')) : sh'.last = sh.last := by
  rw [eq_of_runShortcut h]

/-- What an input completes when it is taken in the world `w`. -/
def completed? (sh : Shell) (w : World) : Input → Option (Text × Table)
  | .interrupt => none
  | .line line =>
    match Reading.ofLine sh.buffer line with
    | .exit | .shortcut | .gathered _ => none
    | .statement lines => sh.completion? w (List.intercalate ['\n'] lines)

/-- All that completes while the inputs are taken one after another. -/
def completions (sh : Shell) (w : World) : List Input → List (Text × Table)
  | [] => []
  | input :: inputs =>
    (sh.completed? (sh.asking w) input).toList ++
      match (sh.take input).perform (sh.asking w) with
      | (.ok (some sh'), w') => sh'.completions w' inputs
      | _ => []

/-- The input ends the statement, which is executed and completes with the table. -/
structure Completes (sh : Shell) (w : World) (input : Input) (statement : Text) (t : Table)
    (w' : World) : Prop where
  reads : ∃ line lines, input = .line line ∧ Reading.ofLine sh.buffer line = .statement lines ∧
    statement = List.intercalate ['\n'] lines
  notBlank : isBlankStatement statement = false
  delivers : sh.Delivers w statement t w'
  shown : t.fault = none

/-- Taking an input, a shell keeps what the input completes, or else what it kept. -/
theorem last_of_take (hw : Source.Steady w)
    (h : (sh.take input).perform w = (.ok (some sh'), w')) :
    sh'.last = (sh.completed? w input).or sh.last ∧
      ∀ done, sh.completed? w input = some done → sh.Completes w input done.1 done.2 w' := by
  cases input with
  | interrupt =>
      cases h
      refine ⟨rfl, ?_⟩
      rintro done ⟨⟩
  | line line =>
      simp only [take, takeLine] at h
      rw [completed?]
      cases hreading : Reading.ofLine sh.buffer line with
      | exit =>
          rw [hreading] at h
          cases h
      | gathered buffer =>
          rw [hreading] at h
          cases h
          refine ⟨rfl, ?_⟩
          rintro done ⟨⟩
      | shortcut =>
          rw [hreading] at h
          obtain ⟨sh₁, w₁, hshortcut, hreturn⟩ := perform_bind_eq_ok.mp h
          cases hreturn
          refine ⟨last_of_runShortcut hshortcut, ?_⟩
          rintro done ⟨⟩
      | statement lines =>
          rw [hreading] at h
          obtain ⟨sh₁, w₁, hstatement, hreturn⟩ := perform_bind_eq_ok.mp h
          cases hreturn
          obtain ⟨hlast, hcompleted⟩ := last_of_runStatement hw hstatement
          refine ⟨hlast, ?_⟩
          intro done hdone
          obtain ⟨hstatement, hblank, hfault, hdelivers⟩ := hcompleted done hdone
          exact ⟨⟨line, lines, rfl, hreading, hstatement⟩, hstatement ▸ hblank,
            hstatement ▸ hdelivers, hfault⟩

theorem getLast?_append_or (done : List (Text × Table)) (first last : Option (Text × Table)) :
    (first.toList ++ done).getLast?.or last = done.getLast?.or (first.or last) := by
  cases first with
  | none => simp
  | some pair =>
      rw [Option.toList_some, List.singleton_append, List.getLast?_cons]
      cases done.getLast? <;> rfl

/-! ## Steady worlds -/

theorem meets_print_steady (text : Text) :
    Meets Source.Steady (fun _ => True) (fun _ => True) (Action.print text) := by
  apply meets_modify
  intro w hw
  exact hw.of_view (w.view_prints [text])

/-- Asking for an input leaves the source steady. -/
theorem steady_asking (sh : Shell) (hw : Source.Steady w) : Source.Steady (sh.asking w) := by
  apply hw.of_view
  apply World.view_eq_iff.mpr
  exact ⟨rfl, rfl, rfl, by simp [asking, Trace.requests, Event.isRequest]⟩

theorem meets_run_steady (x : Executor) (s : Source) :
    Meets Source.Steady (fun _ => True) (fun _ => True) (x.run s) := fun _ hw =>
  ⟨Executor.steady_run hw x s, fun _ _ => trivial, fun _ _ => trivial⟩

theorem meets_attempt_steady (sh : Shell) (x : Executor) :
    Meets Source.Steady (fun _ => True) (fun _ => True) (sh.attempt x) := by
  unfold attempt present
  refine meets_bind (meets_run_steady x sh.source) fun t _ => ?_
  refine meets_bind (R := fun _ => True) (Q := fun _ => True) ?_ fun _ _ => meets_pure trivial
  split
  · exact meets_bind (meets_print_steady _) fun _ _ => meets_display meets_print_steady t
  · exact meets_display meets_print_steady t

theorem steady_runStatement (hw : Source.Steady w)
    (h : (sh.runStatement statement).perform w = (.ok sh', w')) : Source.Steady w' := by
  have hrunning := sh.running statement w
  rw [h] at hrunning
  cases hrunning with
  | blank hblank => exact hw
  | @failed ps _ _ _ hblank hprocessors hattempt hreported =>
      obtain ⟨rfl, -, -⟩ := usable_of_processors hprocessors
      have hsteady := (sh.meets_attempt_steady (prepared ps statement) _ hw).1
      rw [hattempt] at hsteady
      exact (meets_print_steady _ _ hsteady).1
  | @completed ps _ _ _ hblank hprocessors hattempt =>
      obtain ⟨rfl, -, -⟩ := usable_of_processors hprocessors
      have hsteady := (sh.meets_attempt_steady (prepared ps statement) _ hw).1
      rw [hattempt] at hsteady
      exact hsteady

theorem meets_runShortcut_steady (sh : Shell) (line : Text) :
    Meets Source.Steady (fun _ => True) (fun _ => True) (sh.runShortcut line) := by
  have hrun (x : Executor) := meets_run_steady x sh.source
  unfold runShortcut
  split
  · exact meets_bind (meets_print_steady _) fun _ _ => meets_pure trivial
  · refine meets_bind (meets_liftM (fun _ _ => trivial) fun _ _ => trivial) fun limit _ => ?_
    exact meets_bind (meets_print_steady _) fun _ _ => meets_pure trivial
  · refine meets_bind (meets_liftM (fun _ _ => trivial) fun _ _ => trivial) fun index _ => ?_
    exact meets_bind (meets_showPage meets_print_steady hrun _ _) fun _ _ => meets_pure trivial
  · refine meets_bind (meets_print_steady _) fun _ _ => meets_bind (meets_print_steady _) fun _ _ => ?_
    exact meets_pure trivial

/-- Taking an input leaves the source steady. -/
theorem steady_take (hw : Source.Steady w)
    (h : (sh.take input).perform w = (.ok (some sh'), w')) : Source.Steady w' := by
  cases input with
  | interrupt =>
      cases h
      exact (meets_print_steady _ w hw).1
  | line line =>
      simp only [take, takeLine] at h
      cases hreading : Reading.ofLine sh.buffer line with
      | exit =>
          rw [hreading] at h
          cases h
      | gathered buffer =>
          rw [hreading] at h
          cases h
          exact hw
      | shortcut =>
          rw [hreading] at h
          obtain ⟨sh₁, w₁, hshortcut, hreturn⟩ := perform_bind_eq_ok.mp h
          cases hreturn
          have hsteady := (sh.meets_runShortcut_steady line w hw).1
          rw [hshortcut] at hsteady
          exact hsteady
      | statement lines =>
          rw [hreading] at h
          obtain ⟨sh₁, w₁, hstatement, hreturn⟩ := perform_bind_eq_ok.mp h
          cases hreturn
          exact steady_runStatement hw hstatement

theorem Reaches.steady (h : Reaches sh w inputs sh' w') (hw : Source.Steady w) :
    Source.Steady w' := by
  induction h with
  | nil => exact hw
  | cons htake hrest ih => exact ih (steady_take (steady_asking _ hw) htake)

/-! ## Whole runs -/

/-- In every state that is reached, the shell keeps what completed most recently. -/
theorem Reaches.last_eq (h : Reaches sh w inputs sh' w') (hw : Source.Steady w) :
    sh'.last = (sh.completions w inputs).getLast?.or sh.last := by
  induction h with
  | nil => rfl
  | @cons sh _ _ _ _ _ _ _ htake hrest ih =>
      have hsteady := sh.steady_asking hw
      rw [ih (steady_take hsteady htake), (last_of_take hsteady htake).1, completions, htake,
        getLast?_append_or]

/-- What completed last did so at one of the inputs, and nothing completes behind it. -/
theorem Reaches.exists_completes (h : Reaches sh w inputs sh' w') (hw : Source.Steady w)
    {statement : Text} {t : Table}
    (hdone : (sh.completions w inputs).getLast? = some (statement, t)) :
    ∃ before input after sh₁ w₁ sh₂ w₂, inputs = before ++ input :: after ∧
      Reaches sh w before sh₁ w₁ ∧
      (sh₁.take input).perform (sh₁.asking w₁) = (.ok (some sh₂), w₂) ∧
      sh₁.Completes (sh₁.asking w₁) input statement t w₂ ∧
      Reaches sh₂ w₂ after sh' w' ∧ sh₂.completions w₂ after = [] := by
  induction h with
  | nil => cases hdone
  | @cons sh sh₁ sh' w w₁ w' input inputs htake hrest ih =>
      have hsteady := sh.steady_asking hw
      rw [completions, htake] at hdone
      dsimp only at hdone
      cases hlater : (sh₁.completions w₁ inputs).getLast? with
      | some done =>
          rw [List.getLast?_append, hlater] at hdone
          cases hdone
          obtain ⟨before, input', after, sh₂, w₂, sh₃, w₃, rfl, hreaches, hdone⟩ :=
            ih (steady_take hsteady htake) hlater
          exact ⟨input :: before, input', after, sh₂, w₂, sh₃, w₃, rfl, .cons htake hreaches, hdone⟩
      | none =>
          have hnone : sh₁.completions w₁ inputs = [] := List.getLast?_eq_none_iff.mp hlater
          rw [hnone, List.append_nil] at hdone
          have hfirst : sh.completed? (sh.asking w) input = some (statement, t) := by
            cases hcompleted : sh.completed? (sh.asking w) input with
            | none => simp [hcompleted] at hdone
            | some done => simpa [hcompleted] using hdone
          exact ⟨[], input, inputs, sh, w, sh₁, w₁, rfl, .nil, htake,
            (last_of_take hsteady htake).2 _ hfirst, hrest, hnone⟩

/-! ## Rows of the last result -/

/-- Shows the rows around a row with this record. -/
def showRow (sh : Shell) (sql : Text) (index : Nat) (direction : Text)
    (row : List (Text × Value)) : Action Unit := do
  match ← Value.fieldNamed row sh.browser.timeColumn with
  | some (.time time _) =>
    Action.reporting do
      display (← sh.browser.fetch sh.source sql time direction row)
  | _ =>
    Action.print ("Row ".toList ++ natText index ++ " has no timestamp in column ".toList ++
      sh.browser.timeColumn.innerText)

/-- A page is made of a row of the last result, or there is only a message. -/
theorem showPage_cases (sh : Shell) (index : Nat) (direction : Text) :
    (∃ sql t, ∃ h : index < t.rows.length, sh.last = some (sql, t) ∧
        sh.showPage index direction = sh.showRow sql index direction (t.record t.rows[index])) ∨
      ∃ text, sh.showPage index direction = Action.print text := by
  unfold showPage showRow
  cases hlast : sh.last with
  | none => exact Or.inr ⟨_, rfl⟩
  | some last =>
      obtain ⟨sql, t⟩ := last
      by_cases h : index < t.rows.length
      · refine Or.inl ⟨sql, t, h, rfl, ?_⟩
        have hrow := List.getElem?_eq_getElem h
        dsimp only
        generalize t.rows[index]? = row at hrow ⊢
        subst hrow
        rfl
      · refine Or.inr ⟨"Row ".toList ++ natText index ++ " is out of range (".toList ++
          natText t.rows.length ++ " rows)".toList, ?_⟩
        simp only [List.getElem?_eq_none (Nat.not_lt.mp h)]

/-- A shell that starts with no last result, in a world whose source is steady, keeps in every state
that it reaches the statement that completed most recently. The shell executed this statement, and
sent nothing for it but the statement with the automatic order and limit, to which the table is the
answer; nothing completed since. Only an input that completes a statement changes what is kept, no
shortcut does, and a page is made of a row of that table or not at all. -/
theorem last_eq_getLast?_completions (hw : Source.Steady w) (hlast : sh.last = none)
    (h : Reaches sh w inputs sh' w') :
    sh'.last = (sh.completions w inputs).getLast? ∧
    (∀ statement t, sh'.last = some (statement, t) →
      ∃ before input after sh₁ w₁ sh₂ w₂, inputs = before ++ input :: after ∧
        Reaches sh w before sh₁ w₁ ∧
        (sh₁.take input).perform (sh₁.asking w₁) = (.ok (some sh₂), w₂) ∧
        sh₁.Completes (sh₁.asking w₁) input statement t w₂ ∧
        Reaches sh₂ w₂ after sh' w' ∧ sh₂.completions w₂ after = []) ∧
    (∀ input sh'' w'', (sh'.take input).perform (sh'.asking w') = (.ok (some sh''), w'') →
      sh''.last = (sh'.completed? (sh'.asking w') input).or sh'.last) ∧
    (∀ line sh'' w₁ w₂, (sh'.runShortcut line).perform w₁ = (.ok sh'', w₂) →
      sh''.last = sh'.last) ∧
    ∀ index direction,
      (∃ sql t, ∃ hindex : index < t.rows.length, sh'.last = some (sql, t) ∧
        sh'.showPage index direction = sh'.showRow sql index direction (t.record t.rows[index])) ∨
      ∃ text, sh'.showPage index direction = Action.print text := by
  have heq : sh'.last = (sh.completions w inputs).getLast? := by
    rw [h.last_eq hw, hlast, Option.or_none]
  refine ⟨heq, ?_, ?_, fun _ _ _ _ => last_of_runShortcut, sh'.showPage_cases⟩
  · intro statement t hkept
    exact h.exists_completes hw (heq ▸ hkept)
  · intro input sh'' w'' htake
    exact (last_of_take (sh'.steady_asking (h.steady hw)) htake).1

/-- A statement that succeeds, a page around a row that there is not, and a statement that fails. -/
def pagedInputs : List Input :=
  [.line "SELECT a;".toList, .line ".context 7".toList, .line "SELECT b;".toList]

def pagedShell : Shell :=
  ⟨⟨"db".toList, .null, .null, []⟩, .int 10, some (.text "ts".toList, .descending),
    ⟨.text "ts".toList, .int 5, []⟩, "backward".toList, false, none, []⟩

def pagedWorld : World :=
  .initial ⟨[.result (.ok ⟨["a".toList], [[.text "1".toList]], none⟩), .failure "no b".toList], [],
    0⟩ ⟨false, 0, 0⟩

/-- The shell sent both statements with their order and limit, and keeps the first one, with the
answer to it. -/
theorem last_eq_getLast?_completions_pagedInputs :
    Source.Steady pagedWorld ∧ pagedShell.last = none ∧
      ∃ sh w, Reaches pagedShell pagedWorld pagedInputs sh w ∧
        sh.last = (pagedShell.completions pagedWorld pagedInputs).getLast? ∧
        sh.last = some ("SELECT a;".toList, ⟨["a".toList], [[.text "1".toList]], none⟩) ∧
        Trace.requests w.trace =
          [.connect .null .null (some 0),
            .execute 0 (.text "SELECT a ORDER BY \"ts\" DESC LIMIT 10".toList) true,
            .execute 0 (.text "SELECT b ORDER BY \"ts\" DESC LIMIT 10".toList) false] := by
  have hreaches : ∃ sh w, Reaches pagedShell pagedWorld pagedInputs sh w ∧
      sh.last = some ("SELECT a;".toList, ⟨["a".toList], [[.text "1".toList]], none⟩) ∧
      Trace.requests w.trace =
        [.connect .null .null (some 0),
          .execute 0 (.text "SELECT a ORDER BY \"ts\" DESC LIMIT 10".toList) true,
          .execute 0 (.text "SELECT b ORDER BY \"ts\" DESC LIMIT 10".toList) false] :=
    ⟨_, _, .cons rfl (.cons rfl (.cons rfl .nil)), rfl, rfl⟩
  obtain ⟨sh, w, hreaches, hkept, hrequests⟩ := hreaches
  have hsteady : Source.Steady pagedWorld := Source.steady_initial _ _
  obtain ⟨hlast, -⟩ := last_eq_getLast?_completions hsteady rfl hreaches
  exact ⟨hsteady, rfl, sh, w, hreaches, hlast, hkept, hrequests⟩

end Shell

end QuerySplice
