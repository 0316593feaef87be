import Mathlib.Algebra.Ring.Parity
import QuerySplice.Proofs.LeadingBlanks
import QuerySplice.Proofs.Preparations
import QuerySplice.Proofs.Setups

/-!
# What an executor does with a query

A database sees connections and statements, and nothing of logs and counts. What a source does, and
what it ends in, depends on what the database sees alone. So running a prepared query is, in view of
the database, connecting where that is needed and then sending the one text; everything else that an
executor does is log. Its result is the answer of the database, turned round once for each backward
page, and its record of the query stays whatever becomes of the query.
-/

namespace QuerySplice

open Text QuerySplice.Action

/-! ## What is in view of the database -/

/-- Whether an event is something that a database is asked for. -/
def Event.isRequest : Event → Bool
  | connect .. | execute .. | close _ => true
  | log _ | print _ | warn _ | prompt _ | parse _ => false

def Trace.requests (t : List Event) : List Event := t.filter Event.isRequest

/-- A world without logs, texts and counts. -/
structure World.View where
  database : Database
  link : Option Nat
  ready : Bool
  requests : List Event

def World.view (w : World) : World.View := ⟨w.database, w.link, w.ready, Trace.requests w.trace⟩

open Trace

theorem World.view_eq_iff {w w' : World} :
    w.view = w'.view ↔ w.database = w'.database ∧ w.link = w'.link ∧ w.ready = w'.ready ∧
      requests w.trace = requests w'.trace := by
  rw [World.view, World.view, World.View.mk.injEq]

@[simp] theorem requests_append (t u : List Event) : requests (t ++ u) = requests t ++ requests u :=
  List.filter_append _ _

@[simp] theorem requests_log (r : Log.Record) : requests [.log r] = [] := rfl

namespace Action

variable {α β γ : Type}

/-- What the action does to what the database sees, and what it ends in, depends on what the database
sees alone. -/
def Respects (action : Action α) : Prop :=
  ∀ w w', w.view = w'.view → (action.perform w).1 = (action.perform w').1 ∧
    (action.perform w).2.view = (action.perform w').2.view

theorem respects_pure (a : α) : Respects (pure a : Action α) := fun _ _ h => ⟨rfl, h⟩

theorem respects_modify {f : World → World}
    (h : ∀ w w', w.view = w'.view → (f w).view = (f w').view) :
    Respects (modify f : Action Unit) := fun w w' hview => ⟨rfl, h w w' hview⟩

theorem respects_emit (event : Event) : Respects (emit event) := by
  apply respects_modify
  intro w w' h
  obtain ⟨hdatabase, hlink, hready, hrequests⟩ := World.view_eq_iff.mp h
  apply World.view_eq_iff.mpr
  refine ⟨hdatabase, hlink, hready, ?_⟩
  rw [requests_append, requests_append, hrequests]

theorem respects_bind {action : Action α} {next : α → Action β} (haction : Respects action)
    (hnext : ∀ a, Respects (next a)) : Respects (action >>= next) := by
  intro w w' h
  obtain ⟨hresult, hview⟩ := haction w w' h
  rw [perform_bind, perform_bind]
  generalize action.perform w = first at hresult hview ⊢
  generalize action.perform w' = second at hresult hview ⊢
  obtain ⟨result, w₁⟩ := first
  obtain ⟨result', w₂⟩ := second
  obtain rfl : result = result' := hresult
  cases result with
  | error fault => exact ⟨rfl, hview⟩
  | ok a => exact hnext a w₁ w₂ hview

theorem respects_forM {items : List γ} {action : γ → Action Unit} (h : ∀ item, Respects (action item)) :
    Respects (items.forM action) := by
  rw [List.forM_eq_forM]
  induction items with
  | nil => exact respects_pure ()
  | cons item items ih =>
      rw [List.forM_cons]
      exact respects_bind (h item) fun _ => ih

/-- The database sees nothing of the action. -/
def Unseen (action : Action Unit) : Prop :=
  ∀ w, ∃ w', action.perform w = (.ok (), w') ∧ w'.view = w.view

theorem unseen_pure : Unseen (pure ()) := fun w => ⟨w, rfl, rfl⟩

theorem unseen_log (r : Log.Record) : Unseen (emit (.log r)) := by
  intro w
  refine ⟨_, perform_emit _ w, ?_⟩
  simp [World.view]

theorem unseen_bind {action : Action Unit} {next : Unit → Action Unit} (haction : Unseen action)
    (hnext : Unseen (next ())) : Unseen (action >>= next) := by
  intro w
  obtain ⟨w₁, hperform, hview⟩ := haction w
  obtain ⟨w₂, hperform', hview'⟩ := hnext w₁
  refine ⟨w₂, ?_, hview'.trans hview⟩
  rw [perform_bind, hperform]
  exact hperform'

theorem unseen_forM {items : List γ} {action : γ → Action Unit} (h : ∀ item, Unseen (action item)) :
    Unseen (items.forM action) := by
  rw [List.forM_eq_forM]
  induction items with
  | nil => exact unseen_pure
  | cons item items ih =>
      rw [List.forM_cons]
      exact unseen_bind (h item) ih

end Action

/-! ## Sources -/

namespace Source

variable {s : Source} {w w' : World}

theorem respects_openLink : Respects s.openLink := by
  intro w w' h
  obtain ⟨hdatabase, hlink, hready, hrequests⟩ := World.view_eq_iff.mp h
  simp only [openLink, perform_bind, perform_get, perform_set, perform_emit, hdatabase]
  cases w'.database.connect with
  | mk answer db => cases answer <;> simp [World.view, hlink, hready, hrequests]

theorem view_sent (h : w.view = w'.view) (link : Nat) (statement : Value) :
    (sent link statement w).view = (sent link statement w').view := by
  obtain ⟨hdatabase, hlink, hready, hrequests⟩ := World.view_eq_iff.mp h
  simp [World.view, sent, hdatabase, hlink, hready, hrequests]

theorem respects_send (link : Nat) (statement : Value) : Respects (s.send link statement) := by
  intro w w' h
  have hdatabase : w.database = w'.database := congrArg World.View.database h
  rw [perform_send, perform_send, hdatabase]
  exact ⟨rfl, view_sent h link statement⟩

theorem respects_connect : Respects s.connect := by
  unfold connect
  apply respects_bind (respects_emit _)
  intro _
  apply respects_bind respects_openLink
  intro link
  apply respects_bind
  · apply respects_modify
    intro w w' h
    obtain ⟨hdatabase, -, hready, hrequests⟩ := World.view_eq_iff.mp h
    exact World.view_eq_iff.mpr ⟨hdatabase, rfl, hready, hrequests⟩
  intro _
  apply respects_bind
  · apply respects_forM
    intro statement
    exact respects_bind (respects_send link statement) fun _ => respects_pure ()
  intro _
  apply respects_bind
  · apply respects_modify
    intro w w' h
    obtain ⟨hdatabase, hlink, -, hrequests⟩ := World.view_eq_iff.mp h
    exact World.view_eq_iff.mpr ⟨hdatabase, hlink, rfl, hrequests⟩
  intro _
  exact respects_emit _

theorem respects_ensureConnected : Respects s.ensureConnected := by
  intro w w' h
  have hready : w.ready = w'.ready := congrArg World.View.ready h
  rw [perform_ensureConnected, perform_ensureConnected, hready]
  split
  · exact ⟨rfl, h⟩
  · exact respects_connect w w' h

theorem view_announced (sql : Text) (w : World) : (s.announced sql w).view = w.view := by
  simp [World.view, announced]

theorem respects_query (sql : Text) : Respects (s.query sql) := by
  intro w w' h
  obtain ⟨hresult, hview⟩ := respects_ensureConnected (s := s) w w' h
  rw [perform_query, perform_query]
  generalize s.ensureConnected.perform w = first at hresult hview ⊢
  generalize s.ensureConnected.perform w' = second at hresult hview ⊢
  obtain ⟨result, w₁⟩ := first
  obtain ⟨result', w₂⟩ := second
  obtain rfl : result = result' := hresult
  have hlink : w₁.link = w₂.link := congrArg World.View.link hview
  have hdatabase : w₁.database = w₂.database := congrArg World.View.database hview
  have hannounced : (s.announced sql w₁).view = (s.announced sql w₂).view := by
    rw [view_announced, view_announced]
    exact hview
  cases result with
  | error fault => exact ⟨rfl, hview⟩
  | ok _ =>
      simp only [hlink]
      cases w₂.link with
      | none => exact ⟨rfl, hannounced⟩
      | some link =>
          rw [hdatabase]
          exact ⟨rfl, view_sent hannounced link _⟩

/-- What was sent on a connection is in view of the database. -/
theorem sentOn_requests (link : Nat) (t : List Event) : sentOn link (requests t) = sentOn link t := by
  rw [sentOn, sentOn, requests, List.filterMap_filter]
  congr 1
  funext event
  cases event <;> rfl

theorem Steady.of_view (h : Steady w) (hview : w'.view = w.view) : Steady w' := by
  obtain ⟨hdatabase, hlink, hready, hrequests⟩ := World.view_eq_iff.mp hview
  constructor
  · rw [hdatabase, hlink]
    exact h.below
  · intro link hle
    rw [← sentOn_requests, hrequests, sentOn_requests]
    exact h.fresh link (hdatabase ▸ hle)
  · rw [hready, hlink]
    exact h.held

end Source

/-! ## Running a prepared query -/

namespace Processor

/-- How many of the processors make backward pages. -/
def backward (ps : List Processor) : Nat := ps.countP fun p => p.direction? == some .backward

/-- A result with its rows in opposite order if the number of backward pages is odd. -/
def turned (ps : List Processor) (t : Table) : Table :=
  { t with rows := if Odd (backward ps) then t.rows.reverse else t.rows }

theorem after_eq (p : Processor) (t : Table) :
    p.after t =
      { t with rows := if p.direction? = some .backward then t.rows.reverse else t.rows } := by
  cases p with
  | limit n => rfl
  | order column direction => rfl
  | page pg =>
      rw [after, direction?]
      simp only [Option.some.injEq]
      split <;> rfl

/-- Two backward pages turn a result round and back again. -/
theorem foldr_after (ps : List Processor) (t : Table) :
    ps.foldr (fun p t => p.after t) t = turned ps t := by
  induction ps with
  | nil => rw [List.foldr_nil, turned, backward, List.countP_nil, if_neg (by decide)]
  | cons p ps ih =>
      rw [List.foldr_cons, ih, after_eq, turned, turned, backward, backward, List.countP_cons]
      congr 1
      by_cases hp : p.direction? = some .backward
      · have hcount : (p.direction? == some .backward) = true := beq_iff_eq.mpr hp
        rw [if_pos hp, if_pos hcount]
        by_cases hodd : Odd (ps.countP fun p => p.direction? == some .backward)
        · rw [if_pos hodd, if_neg fun h => Nat.odd_add_one.mp h hodd, List.reverse_reverse]
        · rw [if_neg hodd, if_pos (Nat.odd_add_one.mpr hodd)]
      · have hcount : ¬(p.direction? == some .backward) = true := fun h => hp (beq_iff_eq.mp h)
        rw [if_neg hp, if_neg hcount, Nat.add_zero]

end Processor

namespace Executor

open Processor

theorem unseen_logPreparation (x : Executor) (sql : Text) : Unseen (x.logPreparation sql) :=
  unseen_forM fun r => unseen_log r

theorem unseen_announce (x : Executor) (id : Int) : Unseen (x.announce id) := by
  apply unseen_bind (x.unseen_logPreparation _)
  split
  · exact unseen_log _
  · exact unseen_pure

/-- In view of the database, running the last query is sending its text, and the result is turned. -/
theorem perform_run (x : Executor) (s : Source) (w : World) :
    ((x.run s).perform w).1 =
        ((s.query x.last.query).perform w).1.map (turned x.processors) ∧
      ((x.run s).perform w).2.view = ((s.query x.last.query).perform w).2.view := by
  obtain ⟨w₁, hannounce, hview⟩ :=
    x.unseen_announce ((w.queries + 1 : Nat) : Int) { w with queries := w.queries + 1 }
  obtain ⟨hresult, hafter⟩ := Source.respects_query (s := s) x.last.query w₁ w hview
  rw [run_eq]
  simp only [perform_bind, perform_get, perform_modify, hannounce]
  generalize (s.query x.last.query).perform w₁ = first at hresult hafter ⊢
  rw [← hresult, ← hafter]
  obtain ⟨fault | t, w₂⟩ := first
  · exact ⟨rfl, rfl⟩
  · simp only [Action.log, perform_emit, perform_pure, foldr_after]
    constructor
    · rfl
    · simp [World.view]

/-- What becomes of a prepared query: the fault of connecting, in a world where connecting is all that
the database saw; or its one text was sent on the connection held, and nothing else after connecting,
and the answer is turned if it is no fault. -/
inductive Executes (s : Source) (ps : List Processor) (sql : Text) (w : World) :
    Except Fault Table × World → Prop
  | unconnected {fault : Fault} {w₁ w' : World}
      (hconnect : s.ensureConnected.perform w = (.error fault, w₁)) (hview : w'.view = w₁.view) :
      Executes s ps sql w (.error fault, w')
  | sent {link : Nat} {w₁ w' : World} (hconnect : s.ensureConnected.perform w = (.ok (), w₁))
      (hlink : w₁.link = some link)
      (hview : w'.view = (Source.sent link (.text (composed ps sql)) w₁).view) :
      Executes s ps sql w ((s.fetched w₁.database.execute.1).map (turned ps), w')

theorem executes (x : Executor) {s : Source} {w : World} (hw : Source.Steady w) (sql : Text) :
    Executes s x.processors sql w (((x.prepare sql).run s).perform w) := by
  have hquery : (x.prepare sql).last.query = composed x.processors sql := by
    rw [Preparation.last_prepare]
    rfl
  obtain ⟨hresult, hview⟩ := (x.prepare sql).perform_run s w
  rw [hquery, Source.perform_query] at hresult hview
  generalize ((x.prepare sql).run s).perform w = final at hresult hview ⊢
  obtain ⟨result, w'⟩ := final
  cases hensure : s.ensureConnected.perform w with
  | mk connected w₁ =>
      rw [hensure] at hresult hview
      cases connected with
      | error fault =>
          obtain rfl : result = .error fault := hresult
          exact .unconnected hensure hview
      | ok _ =>
          have hcall : s.call w .ensureConnected = w₁ := by
            rw [Source.call, Source.Call.action, hensure]
          have hready : w₁.ready = true := Source.ready_of_ensureConnected hensure
          obtain ⟨link, hlink⟩ := (hcall ▸ hw.ensureConnected (s := s)).held hready
          simp only [hlink] at hresult hview
          obtain rfl : result = (s.fetched w₁.database.execute.1).map (turned x.processors) := hresult
          refine .sent hensure hlink (hview.trans ?_)
          exact Source.view_sent (Source.view_announced _ w₁) link _

/-- On a connected source the text is all that the database sees. -/
theorem Executes.of_ready {s : Source} {ps : List Processor} {sql : Text} {w : World}
    {final : Except Fault Table × World} (h : Executes s ps sql w final) (hready : w.ready = true) :
    ∃ link, w.link = some link ∧
      final.2.view =
        { w.view with
          database := w.database.execute.2
          requests := w.view.requests ++
            [.execute link (.text (composed ps sql)) w.database.execute.1.isOk] } ∧
      final.1 = (s.fetched w.database.execute.1).map (turned ps) := by
  have hensure : s.ensureConnected.perform w = (.ok (), w) := by
    rw [Source.perform_ensureConnected, if_pos hready]
  cases h with
  | unconnected hconnect =>
      rw [hensure] at hconnect
      cases hconnect
  | sent hconnect hlink hview =>
      rw [hensure] at hconnect
      cases hconnect
      refine ⟨_, hlink, hview.trans ?_, rfl⟩
      simp [World.view, Source.sent, requests, Event.isRequest]

/-- Running a query leaves a source steady. -/
theorem steady_run {w : World} (hw : Source.Steady w) (x : Executor) (s : Source) :
    Source.Steady ((x.run s).perform w).2 := by
  have hview := (x.perform_run s w).2
  have hcall : ((s.query x.last.query).perform w).2 = s.call w (.execute x.last.query) := by
    rw [Source.call, Source.Call.action, perform_bind]
    rcases (s.query x.last.query).perform w with ⟨fault | t, w'⟩ <;> rfl
  rw [hcall] at hview
  exact (hw.call (.execute _)).of_view hview

/-! ## Calls -/

theorem prepare_eq (x : Executor) (sql : Text) :
    x.prepare sql = { x with last := Preparation.ofStages x.processors sql } := by
  rw [← Preparation.last_prepare]
  rfl

namespace Use

variable {α β : Type}

theorem perform_ofAction (action : Action α) (st : Executor × World) :
    (ofAction action).perform st = ((action.perform st.2).1, st.1, (action.perform st.2).2) := rfl

theorem perform_bind (use : Use α) (next : α → Use β) (st : Executor × World) :
    (use >>= next).perform st =
      match use.perform st with
      | (.ok a, st') => (next a).perform st'
      | (.error fault, st') => (.error fault, st') := by
  simp only [perform, ExceptT.run_bind, StateT.run_bind]
  rcases StateT.run (ExceptT.run use) st with ⟨fault | a, st'⟩ <;> rfl

/-- What is left does not depend on whether the result is dropped. -/
theorem perform_drop (use : Use α) (st : Executor × World) :
    ((do let _ ← use : Use Unit).perform st).2 = (use.perform st).2 := by
  rw [perform_bind]
  rcases use.perform st with ⟨fault | a, st'⟩ <;> rfl

end Use

theorem perform_execute (s : Source) (sql : Text) (st : Executor × World) :
    (execute s sql).perform st =
      ((((st.1.prepare sql).run s).perform st.2).1, st.1.prepare sql,
        (((st.1.prepare sql).run s).perform st.2).2) := rfl

/-- Rewriting returns the text that the processors make of the query, and the database sees nothing
of it. -/
theorem perform_rewrite (sql : Text) (st : Executor × World) :
    ∃ w, (rewrite sql).perform st =
        (.ok (composed st.1.processors sql), st.1.prepare sql, w) ∧ w.view = st.2.view := by
  obtain ⟨w, hperform, hview⟩ := (st.1.prepare sql).unseen_logPreparation sql st.2
  refine ⟨w, ?_, hview⟩
  have hquery : composed st.1.processors sql = (st.1.prepare sql).last.query := by
    rw [Preparation.last_prepare]
    rfl
  rw [hquery, rewrite, Use.perform_bind]
  change (Use.ofAction ((st.1.prepare sql).logPreparation sql) >>= fun _ =>
    pure (st.1.prepare sql).last.query).perform (st.1.prepare sql, st.2) = _
  rw [Use.perform_bind, Use.perform_ofAction, hperform]
  rfl

/-- What a program can ask of an executor, and of the source that it uses. -/
inductive Call
  | rewrite (sql : Text)
  | execute (sql : Text)
  /-- Gives the executor other processors. -/
  | replace (processors : List Processor)
  | source (call : Source.Call)
  deriving Repr

/-- What a call does with the executor and the world. -/
def Call.use (s : Source) : Call → Use Unit
  | rewrite sql => do let _ ← Executor.rewrite sql
  | execute sql => do let _ ← Executor.execute s sql
  | replace ps => modify fun st => ({ st.1 with processors := ps }, st.2)
  | source call => Use.ofAction (call.action s)

/-- The executor and the world after a call, whether or not the call ended in a fault. -/
def next (s : Source) (st : Executor × World) (c : Call) : Executor × World :=
  ((c.use s).perform st).2

/-- The executor and the world after some calls. -/
def calls (s : Source) (st : Executor × World) (cs : List Call) : Executor × World :=
  cs.foldl (next s) st

theorem next_rewrite (s : Source) (st : Executor × World) (sql : Text) :
    ∃ w, next s st (.rewrite sql) = (st.1.prepare sql, w) ∧ w.view = st.2.view := by
  obtain ⟨w, hperform, hview⟩ := perform_rewrite sql st
  refine ⟨w, ?_, hview⟩
  rw [next, Call.use, Use.perform_drop, hperform]

theorem next_execute (s : Source) (st : Executor × World) (sql : Text) :
    next s st (.execute sql) =
      (st.1.prepare sql, (((st.1.prepare sql).run s).perform st.2).2) := by
  rw [next, Call.use, Use.perform_drop, perform_execute]

/-- The query of a call that has one, with the processors of that time. -/
def lastQuery? : List Processor → List Call → Option (List Processor × Text)
  | _, [] => none
  | ps, .rewrite sql :: cs => (lastQuery? ps cs).or (some (ps, sql))
  | ps, .execute sql :: cs => (lastQuery? ps cs).or (some (ps, sql))
  | _, .replace ps :: cs => lastQuery? ps cs
  | ps, .source _ :: cs => lastQuery? ps cs

/-- The processors that some calls leave. -/
def lastProcessors : List Processor → List Call → List Processor
  | ps, [] => ps
  | _, .replace ps :: cs => lastProcessors ps cs
  | ps, .rewrite _ :: cs | ps, .execute _ :: cs | ps, .source _ :: cs => lastProcessors ps cs

/-- Every call leaves a source steady. -/
theorem steady_next {st : Executor × World} (hw : Source.Steady st.2) (s : Source) (c : Call) :
    Source.Steady (next s st c).2 := by
  cases c with
  | rewrite sql =>
      obtain ⟨w, hnext, hview⟩ := next_rewrite s st sql
      rw [hnext]
      exact hw.of_view hview
  | execute sql =>
      rw [next_execute]
      exact steady_run hw (st.1.prepare sql) s
  | replace ps => exact hw
  | source c => exact hw.call c

theorem steady_calls {st : Executor × World} (hw : Source.Steady st.2) (s : Source)
    (cs : List Call) : Source.Steady (calls s st cs).2 := by
  induction cs generalizing st with
  | nil => exact hw
  | cons c cs ih =>
      rw [calls, List.foldl_cons]
      exact ih (steady_next hw s c)

theorem processors_calls (s : Source) (st : Executor × World) (cs : List Call) :
    (calls s st cs).1.processors = lastProcessors st.1.processors cs := by
  induction cs generalizing st with
  | nil => rfl
  | cons c cs ih =>
      rw [calls, List.foldl_cons]
      refine (ih (next s st c)).trans ?_
      cases c with
      | rewrite sql =>
          obtain ⟨w, hnext, -⟩ := next_rewrite s st sql
          rw [hnext]
          rfl
      | execute sql =>
          rw [next_execute]
          rfl
      | replace ps => rfl
      | source c => rfl

/-- What an executor keeps is the record of the last query, as the processors of that time prepared
it, whatever came before and whatever became of it. -/
theorem last_calls (s : Source) (st : Executor × World) (cs : List Call) :
    (calls s st cs).1.last =
      ((lastQuery? st.1.processors cs).map fun q =>
        Preparation.ofStages q.1 q.2).getD st.1.last := by
  induction cs generalizing st with
  | nil => rfl
  | cons c cs ih =>
      rw [calls, List.foldl_cons]
      refine (ih (next s st c)).trans ?_
      have hprepared : ∀ sql : Text,
          (((lastQuery? st.1.processors cs).map fun q => Preparation.ofStages q.1 q.2).getD
              (st.1.prepare sql).last) =
            (((lastQuery? st.1.processors cs).or (some (st.1.processors, sql))).map fun q =>
              Preparation.ofStages q.1 q.2).getD st.1.last := by
        intro sql
        rw [Preparation.last_prepare]
        cases lastQuery? st.1.processors cs <;> rfl
      cases c with
      | rewrite sql =>
          obtain ⟨w, hnext, -⟩ := next_rewrite s st sql
          rw [hnext]
          exact hprepared sql
      | execute sql =>
          rw [next_execute]
          exact hprepared sql
      | replace ps => rfl
      | source c => rfl

/-- After any calls an executor keeps the record of the last query alone, prepared by the processors
of that time. Rewriting a query returns what the processors make of it, and the database sees nothing
of it. Executing one keeps its record, whatever it ends in. On a connected source it sends the text
that the processors made of the query, once and nothing else, and ends in the answer, with the rows in
opposite order if the number of backward pages is odd; otherwise the source is connected first, and if
it cannot be, nothing is sent. -/
theorem calls_describe_last (s : Source) (db : Database) (elapsed : Number.Binary64)
    (ps : List Processor) (cs : List Call) :
    match calls s (.ofProcessors ps, .initial db elapsed) cs with
    | (x, w) =>
      x = ⟨lastProcessors ps cs,
        ((lastQuery? ps cs).map fun q => Preparation.ofStages q.1 q.2).getD (.start [])⟩ ∧
      ∀ sql,
        (∃ w', (rewrite sql).perform (x, w) =
            (.ok (composed x.processors sql),
              { x with last := Preparation.ofStages x.processors sql }, w') ∧
          w'.view = w.view) ∧
        ∃ result w', (execute s sql).perform (x, w) =
            (result, { x with last := Preparation.ofStages x.processors sql }, w') ∧
          Executes s x.processors sql w (result, w') ∧
          (w.ready = true →
            ∃ link, w.link = some link ∧
              w'.view =
                { w.view with
                  database := w.database.execute.2
                  requests := w.view.requests ++ [.execute link
                    (.text (composed x.processors sql)) w.database.execute.1.isOk] } ∧
              result = (s.fetched w.database.execute.1).map (turned x.processors)) := by
  have hsteady : Source.Steady (calls s (.ofProcessors ps, .initial db elapsed) cs).2 :=
    steady_calls (Source.steady_initial db elapsed) s cs
  have hprocessors := processors_calls s (.ofProcessors ps, .initial db elapsed) cs
  have hlast := last_calls s (.ofProcessors ps, .initial db elapsed) cs
  generalize calls s (.ofProcessors ps, .initial db elapsed) cs = st at hsteady hprocessors hlast
  obtain ⟨⟨processors, last⟩, w⟩ := st
  refine ⟨congrArg₂ Executor.mk hprocessors hlast, ?_⟩
  intro sql
  rw [← prepare_eq]
  refine ⟨perform_rewrite sql _, _, _, perform_execute s sql _, ?_, ?_⟩
  · exact executes _ hsteady sql
  · intro hready
    exact (executes _ hsteady sql).of_ready hready

/-- The last two rows up to a time, which the database returns with the last one first. -/
def rowsBefore : Processor :=
  .page ⟨"ts".toList, "TIMESTAMP '2024-01-02'".toList, .backward, .whole 2, []⟩

/-- On a connected source a backward page is sent as one statement, and its rows are turned round. -/
theorem calls_describe_last_rowsBefore :
    ∃ w, (execute ⟨"db".toList, .null, .null, []⟩ "SELECT a FROM t;".toList).perform
        (calls ⟨"db".toList, .null, .null, []⟩
          (.ofProcessors [rowsBefore],
            .initial ⟨[.result (.ok ⟨["a".toList], [[.int 2], [.int 1]], none⟩)], [], 0⟩
              ⟨false, 0, 0⟩)
          [.source .connect, .rewrite "SELECT b".toList]) =
        (.ok ⟨["a".toList], [[.int 1], [.int 2]], none⟩,
          ⟨[rowsBefore], Preparation.ofStages [rowsBefore] "SELECT a FROM t;".toList⟩, w) ∧
      requests w.trace =
        [.connect .null .null (some 0),
          .execute 0 (.text ("SELECT a FROM t WHERE \"ts\" <= TIMESTAMP '2024-01-02'".toList ++
            " ORDER BY \"ts\" DESC LIMIT 2".toList)) true] := by
  obtain ⟨-, hcalls⟩ := calls_describe_last ⟨"db".toList, .null, .null, []⟩
    ⟨[.result (.ok ⟨["a".toList], [[.int 2], [.int 1]], none⟩)], [], 0⟩ ⟨false, 0, 0⟩ [rowsBefore]
    [.source .connect, .rewrite "SELECT b".toList]
  obtain ⟨-, result, w, hexecute, -, hready⟩ := hcalls "SELECT a FROM t;".toList
  obtain ⟨link, hlink, hview, hresult⟩ := hready rfl
  have htext : composed [rowsBefore] "SELECT a FROM t;".toList =
      "SELECT a FROM t WHERE \"ts\" <= TIMESTAMP '2024-01-02'".toList ++
        " ORDER BY \"ts\" DESC LIMIT 2".toList := by decide +kernel
  refine ⟨w, hexecute.trans ?_, (congrArg World.View.requests hview).trans ?_⟩
  · rw [hresult]
    rfl
  · cases hlink
    rw [← htext]
    rfl

end Executor

end QuerySplice
