import QuerySplice.Proofs.Connections

/-!
# Queries and the setup of their connection

A connection is set up when the first statements sent on it are those of the setup and all of them
have succeeded. A source sends a query on an unclosed connection that is set up, unless it was
already connected, was told to connect once more, and that attempt got a connection but failed to
set it up: the source holds this connection from then on and still counts as connected.
-/

namespace QuerySplice

open Text

/-- The statement that an event sends on a connection, and whether it succeeded. -/
def Event.sentOn? (link : Nat) : Event → Option (Value × Bool)
  | execute l statement succeeded => if l = link then some (statement, succeeded) else none
  | _ => none

/-- The statements sent on a connection, and whether they succeeded. -/
def Trace.sentOn (link : Nat) (t : List Event) : List (Value × Bool) :=
  t.filterMap (Event.sentOn? link)

namespace Source

open Trace

@[simp] theorem sentOn_append (link : Nat) (t u : List Event) :
    sentOn link (t ++ u) = sentOn link t ++ sentOn link u :=
  List.filterMap_append

theorem sentOn_isPrefix (link : Nat) {t u : List Event} (h : t <+: u) :
    sentOn link t <+: sentOn link u := by
  obtain ⟨v, rfl⟩ := h
  rw [sentOn_append]
  exact List.prefix_append _ _

variable {s : Source} {w w' : World}

@[simp] theorem sentOn_asking (link : Nat) (answer : Option Nat) :
    sentOn link (s.asking answer) = [] := rfl

@[simp] theorem sentOn_log (link : Nat) (r : Log.Record) : sentOn link [.log r] = [] := rfl

theorem sentOn_successes (link : Nat) (statements : List Value) :
    sentOn link (successes link statements) = statements.map fun v => (v, true) := by
  induction statements with
  | nil => rfl
  | cons v statements ih => simpa [successes, sentOn, Event.sentOn?] using ih

theorem sentOn_successes_of_ne {link other : Nat} (h : other ≠ link) (statements : List Value) :
    sentOn link (successes other statements) = [] := by
  induction statements with
  | nil => rfl
  | cons v statements ih => simp [successes, sentOn, Event.sentOn?, h]

@[simp] theorem sentOn_execute (link : Nat) (v : Value) (b : Bool) :
    sentOn link [.execute link v b] = [(v, b)] := by
  simp [sentOn, Event.sentOn?]

theorem sentOn_execute_of_ne {link other : Nat} (h : other ≠ link) (v : Value) (b : Bool) :
    sentOn link [.execute other v b] = [] := by
  simp [sentOn, Event.sentOn?, h]

/-- The statements of the setup were the first ones on the connection, and all succeeded. -/
def IsSetUp (s : Source) (link : Nat) (t : List Event) : Prop :=
  (s.setup.map fun v => (v, true)) <+: sentOn link t

theorem IsSetUp.mono {link : Nat} {t u : List Event} (h : s.IsSetUp link t) (htu : t <+: u) :
    s.IsSetUp link u :=
  h.trans (sentOn_isPrefix link htu)

/-! ## Connections of their own -/

/-- What is true of the connection held at any time. -/
structure Steady (w : World) : Prop where
  below : ∀ link, w.link = some link → link < w.database.opened
  /-- Nothing was sent on connections that are still to be opened. -/
  fresh : ∀ link, w.database.opened ≤ link → sentOn link w.trace = []
  held : w.ready = true → ∃ link, w.link = some link

theorem steady_initial (db : Database) (elapsed : Number.Binary64) :
    Steady (.initial db elapsed) where
  below := nofun
  fresh := fun _ _ => rfl
  held := nofun

theorem call_disconnect_ready : (s.call w .disconnect).ready = false := by
  rw [call, Call.action, perform_disconnect]
  cases w.link <;> rfl

namespace Steady

theorem connect (h : Steady w) : Steady (s.call w .connect) := by
  have hconnecting := s.connecting w
  rw [call, Call.action]
  generalize s.connect.perform w = outcome at hconnecting
  cases hconnecting with
  | refused hanswer hopened =>
      refine ⟨?_, ?_, h.held⟩
      · intro link hlink
        exact hopened ▸ h.below link hlink
      · intro link hle
        simpa using h.fresh link (hopened ▸ hle)
  | failed hanswer hsetup hopened =>
      refine ⟨?_, ?_, fun _ => ⟨_, rfl⟩⟩
      · intro link hlink
        simp only [Option.some.injEq] at hlink
        simp only [hopened]
        omega
      · intro link hle
        simp only [hopened] at hle
        have hne : w.database.opened ≠ link := by omega
        simp [h.fresh link (by omega), sentOn_successes_of_ne hne, sentOn_execute_of_ne hne]
  | connected hanswer hopened =>
      refine ⟨?_, ?_, fun _ => ⟨_, rfl⟩⟩
      · intro link hlink
        simp only [Option.some.injEq] at hlink
        simp only [hopened]
        omega
      · intro link hle
        simp only [hopened] at hle
        have hne : w.database.opened ≠ link := by omega
        simp [h.fresh link (by omega), sentOn_successes_of_ne hne]

theorem disconnect (h : Steady w) : Steady (s.call w .disconnect) where
  below := by
    intro link hlink
    rw [call_disconnect_link] at hlink
    cases hlink
  fresh := by
    rw [call, Call.action, perform_disconnect]
    cases w.link with
    | none => exact h.fresh
    | some held =>
        intro link hle
        simpa [sentOn, Event.sentOn?] using h.fresh link hle
  held := by
    intro hready
    rw [call_disconnect_ready] at hready
    cases hready

theorem ensureConnected (h : Steady w) : Steady (s.call w .ensureConnected) := by
  rw [call_ensureConnected]
  split
  · exact h
  · exact h.connect

theorem announced (h : Steady w) (sql : Text) : Steady (s.announced sql w) where
  below := h.below
  fresh := by
    intro link hle
    simpa [Source.announced] using h.fresh link hle
  held := h.held

theorem sent (h : Steady w) {link : Nat} (hlink : w.link = some link) (statement : Value) :
    Steady (Source.sent link statement w) where
  below := by
    intro other hother
    exact w.database.execute_database.1 ▸ h.below other hother
  fresh := by
    intro other hle
    simp only [Source.sent, w.database.execute_database.1] at hle
    have hlt := h.below link hlink
    have hne : link ≠ other := by omega
    simp [Source.sent, h.fresh other hle, sentOn_execute_of_ne hne]
  held := h.held

theorem call (h : Steady w) (c : Call) : Steady (s.call w c) := by
  cases c with
  | connect => exact h.connect
  | disconnect => exact h.disconnect
  | exit => exact h.disconnect
  | ensureConnected => exact h.ensureConnected
  | enter => exact h.ensureConnected
  | execute sql =>
      have hensured : Steady (s.call w .ensureConnected) := h.ensureConnected
      rcases s.call_execute_cases (w := w) sql with hcall | hcall | ⟨link, hlink, hcall⟩
      · rwa [hcall]
      · rw [hcall]
        exact hensured.announced sql
      · rw [hcall]
        exact (hensured.announced sql).sent hlink _

end Steady

theorem steady_calls (db : Database) (elapsed : Number.Binary64) (cs : List Call) :
    Steady (s.calls (.initial db elapsed) cs) := by
  induction cs using List.reverseRecOn with
  | nil => exact steady_initial db elapsed
  | append_singleton cs c ih =>
      rw [calls_concat]
      exact ih.call c

/-! ## Spoiled connections -/

/-- Connecting once more, in a world where the source is connected, gets this connection and then
fails. -/
def Spoils (s : Source) (w : World) (link : Nat) : Prop :=
  w.ready = true ∧ w.database.connect.1 = .ok link ∧
    ∃ fault, (s.connect.perform w).1 = .error fault

/-- One of the calls spoiled the connection. -/
def Spoiled (s : Source) (w : World) (cs : List Call) (link : Nat) : Prop :=
  ∃ before after, cs = before ++ .connect :: after ∧ s.Spoils (s.calls w before) link

theorem Spoiled.concat {cs : List Call} {link : Nat} (h : s.Spoiled w cs link) (c : Call) :
    s.Spoiled w (cs ++ [c]) link := by
  obtain ⟨before, after, rfl, hspoils⟩ := h
  exact ⟨before, after ++ [c], by simp, hspoils⟩

theorem call_trace_isPrefix (c : Call) : w.trace <+: (s.call w c).trace := by
  obtain ⟨events, htrace, -⟩ := (turn_call (s := s) (w := w) c).exists_trace
  rw [htrace]
  exact List.prefix_append _ _

theorem calls_trace_isPrefix (cs : List Call) : w.trace <+: (s.calls w cs).trace := by
  induction cs generalizing w with
  | nil => exact List.prefix_rfl
  | cons c cs ih => exact (call_trace_isPrefix c).trans ih

/-- A failed statement of the setup stands in the way for good. -/
theorem Spoils.not_isSetUp {link : Nat} {t : List Event} (h : s.Spoils w link) (hw : Steady w)
    (ht : (s.call w .connect).trace <+: t) : ¬ s.IsSetUp link t := by
  obtain ⟨-, hanswer, fault, hfault⟩ := h
  obtain rfl := w.database.eq_opened_of_connect hanswer
  have hconnecting := s.connecting w
  rw [call, Call.action] at ht
  generalize s.connect.perform w = outcome at hconnecting ht hfault
  cases hconnecting with
  | refused hrefused => cases hanswer.symm.trans hrefused
  | connected => cases hfault
  | failed hgranted hsetup =>
      rename_i done rest statement message db
      intro hset
      have hsent := sentOn_isPrefix w.database.opened ht
      simp only [sentOn_append, hw.fresh _ le_rfl, sentOn_asking, sentOn_successes,
        sentOn_execute, List.nil_append] at hsent
      rw [IsSetUp, hsetup, List.map_append, List.map_cons] at hset
      -- Both stand at the beginning of what was sent, and they differ behind `done`.
      have hprefix := List.prefix_of_prefix_length_le hsent hset (by simp)
      rw [List.prefix_append_right_inj] at hprefix
      simp at hprefix

theorem Spoiled.not_isSetUp {db : Database} {elapsed : Number.Binary64} {cs : List Call}
    {link : Nat} {t : List Event} (h : s.Spoiled (.initial db elapsed) cs link)
    (ht : (s.calls (.initial db elapsed) cs).trace <+: t) : ¬ s.IsSetUp link t := by
  obtain ⟨before, after, rfl, hspoils⟩ := h
  apply hspoils.not_isSetUp (steady_calls db elapsed before)
  rw [calls, List.foldl_append, List.foldl_cons] at ht
  exact (calls_trace_isPrefix after).trans ht

/-! ## The connection of a connected source -/

/-- A source that counts as connected after connecting holds a connection that is set up, or it was
connected before: then the connection is the old one or a spoiled one. -/
theorem ready_connect {link : Nat} (hw : Steady w) (hready : (s.call w .connect).ready = true)
    (hlink : (s.call w .connect).link = some link) :
    s.IsSetUp link (s.call w .connect).trace ∨
      w.ready = true ∧ (w.link = some link ∨ s.Spoils w link) := by
  have hconnecting := s.connecting w
  have hfault : ∀ fault, (s.connect.perform w).1 = .error fault → w.ready = true →
      w.database.connect.1 = .ok link → s.Spoils w link :=
    fun fault h hr hanswer => ⟨hr, hanswer, fault, h⟩
  rw [call, Call.action] at *
  generalize s.connect.perform w = outcome at hconnecting hready hlink hfault
  cases hconnecting with
  | refused => exact Or.inr ⟨hready, Or.inl hlink⟩
  | failed hanswer =>
      cases hlink
      exact Or.inr ⟨hready, Or.inr (hfault _ rfl hready hanswer)⟩
  | connected =>
      cases hlink
      left
      simp [IsSetUp, hw.fresh _ le_rfl, sentOn_successes]

theorem ready_ensureConnected (link : Nat) {P : Prop} (hw : Steady w)
    (h : w.ready = true → w.link = some link → s.IsSetUp link w.trace ∨ P)
    (hready : (s.call w .ensureConnected).ready = true)
    (hlink : (s.call w .ensureConnected).link = some link) :
    s.IsSetUp link (s.call w .ensureConnected).trace ∨ P := by
  by_cases hr : w.ready = true
  · rw [call_ensureConnected, if_pos hr] at hlink ⊢
    exact h hr hlink
  · rw [call_ensureConnected, if_neg hr] at hready hlink ⊢
    rcases ready_connect hw hready hlink with hset | ⟨hbefore, -⟩
    · exact Or.inl hset
    · exact absurd hbefore hr

/-- After some calls a connected source holds a connection that is set up or spoiled. -/
theorem ready_calls {db : Database} {elapsed : Number.Binary64} (cs : List Call) {link : Nat}
    (hready : (s.calls (.initial db elapsed) cs).ready = true)
    (hlink : (s.calls (.initial db elapsed) cs).link = some link) :
    s.IsSetUp link (s.calls (.initial db elapsed) cs).trace ∨
      s.Spoiled (.initial db elapsed) cs link := by
  induction cs using List.reverseRecOn generalizing link with
  | nil => cases hlink
  | append_singleton cs c ih =>
      have hw : Steady (s.calls (.initial db elapsed) cs) := steady_calls db elapsed cs
      have hlater : ∀ {link}, s.IsSetUp link (s.calls (.initial db elapsed) cs).trace ∨
          s.Spoiled (.initial db elapsed) cs link →
          s.IsSetUp link (s.call (s.calls (.initial db elapsed) cs) c).trace ∨
            s.Spoiled (.initial db elapsed) (cs ++ [c]) link :=
        fun h => h.imp (·.mono (call_trace_isPrefix c)) (·.concat c)
      have hensured := ready_ensureConnected (s := s) link hw
        (fun hr hl => (ih hr hl).imp_right (·.concat c))
      rw [calls_concat] at *
      cases c with
      | connect =>
          rcases ready_connect hw hready hlink with hset | ⟨hr, hl | hspoils⟩
          · exact Or.inl hset
          · exact hlater (ih hr hl)
          · exact Or.inr ⟨cs, [], rfl, hspoils⟩
      | disconnect => exact absurd hready (call_disconnect_ready ▸ Bool.false_ne_true)
      | exit => exact absurd hready (call_disconnect_ready ▸ Bool.false_ne_true)
      | ensureConnected => exact hensured hready hlink
      | enter => exact hensured hready hlink
      | execute sql =>
          rcases s.call_execute_cases (w := s.calls (.initial db elapsed) cs) sql with
            hcall | hcall | ⟨_, -, hcall⟩
          · rw [hcall] at hready hlink ⊢
            exact hensured hready hlink
          · rw [hcall] at hready hlink ⊢
            exact (hensured hready hlink).imp_left (·.mono (List.prefix_append _ _))
          · rw [hcall] at hready hlink ⊢
            exact (hensured hready hlink).imp_left
              (·.mono ((List.prefix_append _ _).trans (List.prefix_append _ _)))

/-! ## Queries -/

theorem ready_of_ensureConnected (h : s.ensureConnected.perform w = (.ok (), w')) :
    w'.ready = true := by
  rw [perform_ensureConnected] at h
  split at h
  · next hr =>
      cases h
      exact hr
  · have hconnecting := s.connecting w
    rw [h] at hconnecting
    cases hconnecting
    rfl

theorem unclosed_announced (sql : Text) :
    unclosed (s.announced sql w).trace = unclosed w.trace := by
  simp [unclosed, announced, Event.opened?, Event.closed?]

/-- A query ends in the fault of connecting, or it is sent on the connection held. -/
theorem query_cases {lost : List Nat} {P : Nat → Prop} (hw : Steady w) (hbooks : Books w lost)
    (h : ∀ link, w.ready = true → w.link = some link → s.IsSetUp link w.trace ∨ P link)
    (sql : Text) :
    (∃ fault w', s.ensureConnected.perform w = (.error fault, w') ∧
        (s.query sql).perform w = (.error fault, w')) ∨
      ∃ link t succeeded,
        ((s.query sql).perform w).2.trace = t ++ [.execute link (.text sql) succeeded] ∧
          link ∈ unclosed t ∧ w.trace <+: t ∧ (s.IsSetUp link t ∨ P link) := by
  rw [perform_query]
  rcases hensure : s.ensureConnected.perform w with ⟨fault | _, w'⟩
  · exact Or.inl ⟨fault, w', rfl, rfl⟩
  · right
    have hcall : s.call w .ensureConnected = w' := by rw [call, Call.action, hensure]
    have hr : w'.ready = true := ready_of_ensureConnected hensure
    obtain ⟨link, hlink⟩ := (hcall ▸ hw.ensureConnected (s := s)).held hr
    have hannounced : w'.trace <+: (s.announced sql w').trace := List.prefix_append _ _
    refine ⟨link, (s.announced sql w').trace, w'.database.execute.1.isOk, ?_, ?_, ?_, ?_⟩
    · simp only [hlink]
      rfl
    · have hbooks' := hbooks.turn (turn_ensureConnected (s := s))
      rw [hcall] at hbooks'
      rw [unclosed_announced, hbooks'.unclosed_perm.mem_iff]
      simp [hlink]
    · exact (hcall ▸ call_trace_isPrefix .ensureConnected).trans hannounced
    · have hset := ready_ensureConnected link hw (h link) (hcall ▸ hr) (hcall ▸ hlink)
      rw [hcall] at hset
      exact hset.imp_left (·.mono hannounced)

/-- A query is not sent if the source cannot be connected. Otherwise it is sent on an unclosed
connection, which is set up exactly if no call before has spoiled it. -/
theorem query_sent (s : Source) (db : Database) (elapsed : Number.Binary64) (cs : List Call)
    (sql : Text) :
    (∃ fault w', s.ensureConnected.perform (s.calls (.initial db elapsed) cs) =
          (.error fault, w') ∧
        (s.query sql).perform (s.calls (.initial db elapsed) cs) = (.error fault, w')) ∨
      ∃ link t succeeded,
        ((s.query sql).perform (s.calls (.initial db elapsed) cs)).2.trace =
            t ++ [.execute link (.text sql) succeeded] ∧
          link ∈ unclosed t ∧
          (s.IsSetUp link t ↔ ¬ s.Spoiled (.initial db elapsed) cs link) := by
  rcases query_cases (steady_calls db elapsed cs) (s.books_calls db elapsed cs)
      (fun _ => ready_calls cs) sql with hfault | ⟨link, t, succeeded, htrace, hopen, ht, hset⟩
  · exact Or.inl hfault
  · refine Or.inr ⟨link, t, succeeded, htrace, hopen, ?_⟩
    constructor
    · intro hset' hspoiled
      exact hspoiled.not_isSetUp ht hset'
    · intro hnot
      exact hset.resolve_right hnot

/-- A source that is connected and connects once more, but cannot set the new connection up, sends
its queries on that connection all the same. -/
theorem not_isSetUp_connect_connect :
    ¬ (∀ (s : Source) (db : Database) (elapsed : Number.Binary64) (cs : List Call) (sql : Text)
      (link : Nat) (t : List Event) (succeeded : Bool),
      ((s.query sql).perform (s.calls (.initial db elapsed) cs)).2.trace =
        t ++ [.execute link (.text sql) succeeded] → s.IsSetUp link t) := by
  intro h
  have hset : [(Value.text "A".toList, true)] <+: [(Value.text "A".toList, false)] :=
    h ⟨"db".toList, .text ":memory:".toList, .bool false, [.text "A".toList]⟩
      ⟨[.result (.ok .empty), .failure "boom".toList], [], 0⟩ ⟨false, 0, 0⟩ [.connect, .connect]
      "Q".toList 1 _ true rfl
  simp at hset

end Source

end QuerySplice
