import Mathlib.Data.List.Infix
import Mathlib.Data.List.Nodup
import Mathlib.Data.List.Perm.Basic
import QuerySplice.Proofs.Sources

/-!
# The connections of a source

A program calls a source as often and in whatever order it likes. The trace tells which
connections were opened and which of them are unclosed. A call that connects forgets the
connection held before when it is granted a new one, and the connections forgotten in this way are
those that nothing ever closes.
-/

namespace QuerySplice

open Text

/-! ## Reading a trace -/

namespace Event

/-- The connection that an event opens. -/
def opened? : Event → Option Nat
  | connect _ _ link => link
  | _ => none

/-- The connection that an event closes. -/
def closed? : Event → Option Nat
  | close link => some link
  | _ => none

end Event

namespace Trace

def opened (t : List Event) : List Nat := t.filterMap Event.opened?

def closed (t : List Event) : List Nat := t.filterMap Event.closed?

/-- The connections that were opened and have not been closed. -/
def unclosed (t : List Event) : List Nat := (opened t).filter fun link => link ∉ closed t

@[simp] theorem opened_nil : opened [] = [] := rfl

@[simp] theorem closed_nil : closed [] = [] := rfl

@[simp] theorem opened_cons (e : Event) (t : List Event) :
    opened (e :: t) = e.opened?.toList ++ opened t := by
  cases h : e.opened? <;> simp [opened, h]

@[simp] theorem closed_cons (e : Event) (t : List Event) :
    closed (e :: t) = e.closed?.toList ++ closed t := by
  cases h : e.closed? <;> simp [closed, h]

@[simp] theorem opened_append (t u : List Event) : opened (t ++ u) = opened t ++ opened u :=
  List.filterMap_append

@[simp] theorem closed_append (t u : List Event) : closed (t ++ u) = closed t ++ closed u :=
  List.filterMap_append

/-- Every further event opens at most the connections that it is seen to open. -/
theorem length_unclosed_append_le (t u : List Event) :
    (unclosed (t ++ u)).length ≤ (unclosed t).length + (opened u).length := by
  have hleft : ((opened t).filter fun link => link ∉ closed (t ++ u)).Sublist (unclosed t) := by
    apply List.monotone_filter_right
    intro link
    simp +contextual
  have hright := List.length_filter_le (fun link => link ∉ closed (t ++ u)) (opened u)
  have hlength := hleft.length_le
  rw [unclosed, opened_append, List.filter_append, List.length_append]
  omega

/-- What was opened is closed once or unclosed, if nothing was opened twice and what was closed
had been opened. -/
theorem perm_closed_append_unclosed {t : List Event} (hopened : (opened t).Nodup)
    (hclosed : (closed t).Nodup) (hsubset : closed t ⊆ opened t) :
    (opened t).Perm (closed t ++ unclosed t) := by
  have hkept : ((opened t).filter fun link => link ∈ closed t).Perm (closed t) := by
    rw [List.perm_ext_iff_of_nodup (hopened.filter _) hclosed]
    intro link
    simpa using @hsubset link
  have hsplit := List.filter_append_perm (fun link => decide (link ∈ closed t)) (opened t)
  simp only [← decide_not] at hsplit
  exact hsplit.symm.trans (hkept.append_right _)

/-- Whatever closing and the rest make up together, the rest is unclosed. -/
theorem unclosed_perm {t : List Event} {rest : List Nat} (hopened : (opened t).Nodup)
    (hbalance : (opened t).Perm (closed t ++ rest)) : (unclosed t).Perm rest := by
  have hnodup := (hbalance.nodup_iff).mp hopened
  have hdisjoint := List.disjoint_of_nodup_append hnodup
  refine (hbalance.filter _).trans ?_
  rw [List.filter_append]
  have hnone : (closed t).filter (fun link => link ∉ closed t) = [] := by
    simp
  have hall : rest.filter (fun link => link ∉ closed t) = rest := by
    rw [List.filter_eq_self]
    intro link hlink
    simpa using fun h => hdisjoint h hlink
  rw [hnone, hall, List.nil_append]

end Trace

namespace Source

open Trace

/-! ## Calls -/

/-- What a program can ask of a source. -/
inductive Call
  | connect
  | disconnect
  | ensureConnected
  /-- Entering a block that uses the source. -/
  | enter
  /-- Leaving such a block, be it with a fault or without. -/
  | exit
  | execute (sql : Text)
  deriving DecidableEq, Repr

def Call.action (s : Source) : Call → Action Unit
  | connect => s.connect
  | disconnect | exit => s.disconnect
  | ensureConnected | enter => s.ensureConnected
  | execute sql => do let _ ← s.query sql

/-- The world after a call, whether or not the call ended in a fault. -/
def call (s : Source) (w : World) (c : Call) : World := ((c.action s).perform w).2

/-- The world after some calls. -/
def calls (s : Source) (w : World) (cs : List Call) : World := cs.foldl s.call w

/-- Whether a call asks for a connection. -/
def Call.connects (w : World) : Call → Bool
  | connect => true
  | disconnect | exit => false
  | ensureConnected | enter | execute _ => !w.ready

/-- The connection that a call forgets: the one held, if the call is granted another. -/
def forgotten (w : World) (c : Call) : List Nat :=
  if c.connects w ∧ w.database.connect.1.isOk then w.link.toList else []

/-- The connections that some calls forget. -/
def allForgotten (s : Source) : World → List Call → List Nat
  | _, [] => []
  | w, c :: cs => forgotten w c ++ s.allForgotten (s.call w c) cs

variable {s : Source} {w w' : World}

theorem calls_concat (cs : List Call) (c : Call) :
    s.calls w (cs ++ [c]) = s.call (s.calls w cs) c := by
  rw [calls, List.foldl_concat, calls]

theorem allForgotten_concat (cs : List Call) (c : Call) :
    s.allForgotten w (cs ++ [c]) = s.allForgotten w cs ++ forgotten (s.calls w cs) c := by
  induction cs generalizing w with
  | nil => simp [allForgotten, calls]
  | cons c' cs ih => simp [allForgotten, calls, ih]

theorem call_ensureConnected :
    s.call w .ensureConnected = if w.ready then w else s.call w .connect := by
  simp only [call, Call.action, perform_ensureConnected]
  split <;> rfl

/-- A query does what making sure of a connection does, and sends a statement after that at most
on the connection held. -/
theorem call_execute_cases (sql : Text) :
    s.call w (.execute sql) = s.call w .ensureConnected ∨
      s.call w (.execute sql) = s.announced sql (s.call w .ensureConnected) ∨
      ∃ link, (s.call w .ensureConnected).link = some link ∧
        s.call w (.execute sql) =
          sent link (.text sql) (s.announced sql (s.call w .ensureConnected)) := by
  have hquery : s.call w (.execute sql) = ((s.query sql).perform w).2 := by
    simp only [call, Call.action, Action.perform_bind]
    rcases (s.query sql).perform w with ⟨fault | t, w'⟩ <;> rfl
  rw [hquery, perform_query]
  have hensure : s.call w .ensureConnected = (s.ensureConnected.perform w).2 := rfl
  rw [hensure]
  rcases s.ensureConnected.perform w with ⟨fault | _, w'⟩
  · exact Or.inl rfl
  · cases hlink : w'.link with
    | none =>
        right; left
        simp only [hlink]
    | some link =>
        right; right
        exact ⟨link, rfl, by simp only [hlink]⟩

/-! ## What a call does to the connections -/

/-- How the connections differ between `w` and `w'` when those in `lost` are forgotten. -/
inductive Turn (w w' : World) (lost : List Nat) : Prop
  | kept {events : List Event} (htrace : w'.trace = w.trace ++ events)
      (hcount : w'.database.opened = w.database.opened) (hlink : w'.link = w.link)
      (hlost : lost = []) (hopened : opened events = []) (hclosed : closed events = [])
  | granted {events : List Event} (htrace : w'.trace = w.trace ++ events)
      (hcount : w'.database.opened = w.database.opened + 1)
      (hlink : w'.link = some w.database.opened) (hlost : lost = w.link.toList)
      (hopened : opened events = [w.database.opened]) (hclosed : closed events = [])
  | released {events : List Event} {link : Nat} (htrace : w'.trace = w.trace ++ events)
      (hcount : w'.database.opened = w.database.opened) (hheld : w.link = some link)
      (hlink : w'.link = none) (hlost : lost = []) (hopened : opened events = [])
      (hclosed : closed events = [link])

/-- Statements and records of the log open and close nothing. -/
theorem Turn.followed {lost : List Nat} {w'' : World} {events : List Event}
    (h : Turn w w' lost) (htrace : w''.trace = w'.trace ++ events)
    (hcount : w''.database.opened = w'.database.opened) (hlink : w''.link = w'.link)
    (hopened : opened events = []) (hclosed : closed events = []) : Turn w w'' lost := by
  cases h with
  | kept ht hc hl hlost ho hcl =>
      refine .kept (by rw [htrace, ht, List.append_assoc]) (hcount.trans hc) (hlink.trans hl) hlost
        ?_ ?_ <;> simp_all
  | granted ht hc hl hlost ho hcl =>
      refine .granted (by rw [htrace, ht, List.append_assoc]) (hcount.trans hc) (hlink.trans hl)
        hlost ?_ ?_ <;> simp_all
  | released ht hc hheld hl hlost ho hcl =>
      refine .released (by rw [htrace, ht, List.append_assoc]) (hcount.trans hc) hheld
        (hlink.trans hl) hlost ?_ ?_ <;> simp_all

@[simp] theorem opened_successes (link : Nat) (statements : List Value) :
    opened (successes link statements) = [] := by
  induction statements with
  | nil => rfl
  | cons v statements ih => simpa [successes, Event.opened?] using ih

@[simp] theorem closed_successes (link : Nat) (statements : List Value) :
    closed (successes link statements) = [] := by
  induction statements with
  | nil => rfl
  | cons v statements ih => simpa [successes, Event.closed?] using ih

@[simp] theorem opened_asking (link : Option Nat) : opened (s.asking link) = link.toList := by
  simp [asking, Event.opened?]

@[simp] theorem closed_asking (link : Option Nat) : closed (s.asking link) = [] := by
  simp [asking, Event.closed?]

theorem turn_connect : Turn w (s.call w .connect) (forgotten w .connect) := by
  have h := s.connecting w
  rw [call, Call.action]
  generalize s.connect.perform w = outcome at h
  cases h with
  | refused hanswer hopened =>
      refine .kept rfl hopened rfl ?_ ?_ ?_
      · simp [forgotten, hanswer, Except.isOk, Except.toBool]
      · simp
      · simp
  | failed hanswer hsetup hopened =>
      refine .granted rfl hopened rfl ?_ ?_ ?_
      · simp [forgotten, hanswer, Except.isOk, Except.toBool, Call.connects]
      · simp [Event.opened?]
      · simp [Event.closed?]
  | connected hanswer hopened =>
      refine .granted rfl hopened rfl ?_ ?_ ?_
      · simp [forgotten, hanswer, Except.isOk, Except.toBool, Call.connects]
      · simp [Event.opened?]
      · simp [Event.closed?]

theorem turn_disconnect : Turn w (s.call w .disconnect) [] := by
  rw [call, Call.action, perform_disconnect]
  cases hlink : w.link with
  | none =>
      exact .kept (List.append_nil _).symm rfl hlink.symm rfl rfl rfl
  | some link =>
      exact .released rfl rfl hlink rfl rfl (by simp [Event.opened?]) (by simp [Event.closed?])

theorem turn_ensureConnected :
    Turn w (s.call w .ensureConnected) (forgotten w .ensureConnected) := by
  rw [call_ensureConnected]
  cases hready : w.ready with
  | false =>
      have h := turn_connect (s := s) (w := w)
      simpa [forgotten, Call.connects, hready] using h
  | true =>
      refine .kept (List.append_nil _).symm rfl rfl ?_ rfl rfl
      simp [forgotten, Call.connects, hready]

/-- Every call is such a turn, however it ends. -/
theorem turn_call (c : Call) : Turn w (s.call w c) (forgotten w c) := by
  cases c with
  | connect => exact turn_connect
  | disconnect => exact turn_disconnect
  | exit => exact turn_disconnect
  | ensureConnected => exact turn_ensureConnected
  | enter => exact turn_ensureConnected
  | execute sql =>
      have h : Turn w (s.call w .ensureConnected) (forgotten w (.execute sql)) :=
        turn_ensureConnected
      rcases s.call_execute_cases (w := w) sql with hcall | hcall | ⟨link, hlink, hcall⟩
      · rwa [hcall]
      · rw [hcall]
        exact h.followed rfl rfl rfl (by simp [Event.opened?]) (by simp [Event.closed?])
      · rw [hcall]
        refine h.followed (List.append_assoc _ _ _) ?_ rfl ?_ ?_
        · exact (s.call w .ensureConnected).database.execute_database.1
        · simp [Event.opened?]
        · simp [Event.closed?]

/-! ## The books -/

/-- What is true of the connections in `w` when those in `lost` were forgotten on the way. -/
structure Books (w : World) (lost : List Nat) : Prop where
  nodup : (opened w.trace).Nodup
  below : ∀ link ∈ opened w.trace, link < w.database.opened
  balance : (opened w.trace).Perm (closed w.trace ++ (w.link.toList ++ lost))
  /-- Nothing is ever closed that was not opened before. -/
  ordered : ∀ t, t <+: w.trace → closed t ⊆ opened t

variable {lost lost' : List Nat}

theorem books_initial (db : Database) (elapsed : Number.Binary64) :
    Books (.initial db elapsed) [] where
  nodup := List.nodup_nil
  below := by simp [World.initial]
  balance := List.Perm.nil
  ordered := by
    intro t ht
    rw [List.prefix_nil.mp ht]
    simp

/-- What comes before the end of two traces in a row ends in the first or goes into the second. -/
theorem prefix_append_cases {t a b : List Event} (h : t <+: a ++ b) :
    t <+: a ∨ ∃ u, u <+: b ∧ t = a ++ u := by
  rcases List.prefix_or_prefix_of_prefix h (List.prefix_append a b) with ht | ⟨u, rfl⟩
  · exact Or.inl ht
  · exact Or.inr ⟨u, (List.prefix_append_right_inj a).mp h, rfl⟩

namespace Turn

/-- A turn adds to the trace and closes at most the connection held. -/
theorem exists_trace (h : Turn w w' lost) :
    ∃ events, w'.trace = w.trace ++ events ∧ closed events ⊆ w.link.toList := by
  cases h with
  | kept ht _ _ _ _ hcl => exact ⟨_, ht, by simp [hcl]⟩
  | granted ht _ _ _ _ hcl => exact ⟨_, ht, by simp [hcl]⟩
  | released ht _ hheld _ _ _ hcl => exact ⟨_, ht, by simp [hcl, hheld]⟩

end Turn

namespace Books

/-- Books that are in order stay so. -/
theorem turn (h : Books w lost) (hturn : Turn w w' lost') : Books w' (lost ++ lost') where
  nodup := by
    cases hturn with
    | kept ht hc hl hlost ho hcl => simpa [ht, ho] using h.nodup
    | released ht hc hheld hl hlost ho hcl => simpa [ht, ho] using h.nodup
    | granted ht hc hl hlost ho hcl =>
        rw [ht, opened_append, ho, List.nodup_append]
        refine ⟨h.nodup, by simp, ?_⟩
        intro a ha b hb
        have hlt := h.below a ha
        rw [List.mem_singleton.mp hb]
        omega
  below := by
    cases hturn with
    | kept ht hc hl hlost ho hcl => simpa [ht, ho, hc] using h.below
    | released ht hc hheld hl hlost ho hcl => simpa [ht, ho, hc] using h.below
    | granted ht hc hl hlost ho hcl =>
        intro link hlink
        rw [ht, opened_append, ho, List.mem_append, List.mem_singleton] at hlink
        rw [hc]
        rcases hlink with hlink | rfl
        · exact Nat.lt_succ_of_lt (h.below link hlink)
        · exact Nat.lt_succ_self _
  balance := by
    have hbalance := List.perm_iff_count.mp h.balance
    rw [List.perm_iff_count]
    intro link
    have hcount := hbalance link
    cases hturn with
    | kept ht hc hl hlost ho hcl => simpa [ht, ho, hcl, hl, hlost] using hcount
    | released ht hc hheld hl hlost ho hcl =>
        simp only [ht, ho, hcl, hl, hlost, hheld, opened_append, closed_append, List.count_append,
          Option.toList_some, Option.toList_none, List.count_nil] at hcount ⊢
        omega
    | granted ht hc hl hlost ho hcl =>
        simp only [ht, ho, hcl, hl, hlost, opened_append, closed_append, List.count_append,
          Option.toList_some, List.count_nil] at hcount ⊢
        omega
  ordered := by
    obtain ⟨events, htrace, hclosed⟩ := hturn.exists_trace
    intro t ht
    rw [htrace] at ht
    rcases prefix_append_cases ht with hold | ⟨u, hu, rfl⟩
    · exact h.ordered t hold
    · intro link hlink
      rw [closed_append, List.mem_append] at hlink
      rw [opened_append, List.mem_append]
      left
      rcases hlink with hlink | hlink
      · exact h.ordered w.trace List.prefix_rfl hlink
      · -- Only the connection held is closed now, and it is among those opened so far.
        have hheld := hclosed ((hu.sublist.filterMap _).subset hlink)
        exact h.balance.mem_iff.mpr (by simp [hheld])

theorem unclosed_perm (h : Books w lost) : (unclosed w.trace).Perm (w.link.toList ++ lost) :=
  Trace.unclosed_perm h.nodup h.balance

/-- At any time, what was opened is either closed, and that once, or unclosed. -/
theorem paired (h : Books w lost) {t : List Event} (ht : t <+: w.trace) :
    (opened t).Nodup ∧ (opened t).Perm (closed t ++ unclosed t) := by
  have hopened := h.nodup.sublist (ht.sublist.filterMap _)
  have hclosed := (((h.balance.nodup_iff).mp h.nodup).of_append_left).sublist
    (ht.sublist.filterMap _)
  exact ⟨hopened, perm_closed_append_unclosed hopened hclosed (h.ordered t ht)⟩

end Books

theorem books_calls (db : Database) (elapsed : Number.Binary64) (cs : List Call) :
    Books (s.calls (.initial db elapsed) cs) (s.allForgotten (.initial db elapsed) cs) := by
  induction cs using List.reverseRecOn with
  | nil => exact books_initial db elapsed
  | append_singleton cs c ih =>
      rw [calls_concat, allForgotten_concat]
      exact ih.turn (turn_call c)

/-! ## No more than one -/

/-- At no time more than one connection is unclosed. -/
def OneAtATime (t : List Event) : Prop := ∀ u, u <+: t → (unclosed u).length ≤ 1

/-- A turn that forgets nothing leaves one connection unclosed at most. -/
theorem Turn.oneAtATime (h : Turn w w' []) (hbooks : Books w []) (hone : OneAtATime w.trace) :
    OneAtATime w'.trace := by
  obtain ⟨events, htrace, hlength⟩ : ∃ events, w'.trace = w.trace ++ events ∧
      (unclosed w.trace).length + (opened events).length ≤ 1 := by
    have hheld := hone w.trace List.prefix_rfl
    cases h with
    | kept ht hc hl hlost ho hcl => exact ⟨_, ht, by simpa [ho] using hheld⟩
    | released ht hc hl' hl hlost ho hcl => exact ⟨_, ht, by simpa [ho] using hheld⟩
    | granted ht hc hl hlost ho hcl =>
        have hnone := hbooks.unclosed_perm.length_eq
        rw [← hlost] at hnone
        exact ⟨_, ht, by simp [ho, hnone]⟩
  intro t ht
  rw [htrace] at ht
  rcases prefix_append_cases ht with hold | ⟨u, hu, rfl⟩
  · exact hone t hold
  · have hle := length_unclosed_append_le w.trace u
    have hopened := (hu.sublist.filterMap Event.opened?).length_le
    simp only [opened] at hle hlength
    omega

/-- Whoever forgets a connection holds another. -/
theorem Turn.link_of_lost (h : Turn w w' lost) (hlost : lost ≠ []) :
    ∃ link, w'.link = some link := by
  cases h with
  | kept ht hc hl hnone ho hcl => exact absurd hnone hlost
  | released ht hc hheld hl hnone ho hcl => exact absurd hnone hlost
  | granted ht hc hl hlink ho hcl => exact ⟨_, hl⟩

theorem oneAtATime_calls_iff (db : Database) (elapsed : Number.Binary64) (cs : List Call) :
    OneAtATime (s.calls (.initial db elapsed) cs).trace ↔
      s.allForgotten (.initial db elapsed) cs = [] := by
  induction cs using List.reverseRecOn with
  | nil =>
      refine iff_of_true ?_ rfl
      intro t ht
      rw [List.prefix_nil.mp ht]
      exact Nat.zero_le 1
  | append_singleton cs c ih =>
      have hturn := s.turn_call (w := s.calls (.initial db elapsed) cs) c
      have hafter := s.books_calls db elapsed (cs ++ [c])
      rw [calls_concat, allForgotten_concat] at *
      constructor
      · intro hone
        obtain ⟨events, htrace, -⟩ := hturn.exists_trace
        have hbefore : s.allForgotten (.initial db elapsed) cs = [] := by
          apply ih.mp
          intro t ht
          exact hone t (ht.trans (htrace ▸ List.prefix_append _ _))
        by_contra hlost
        rw [hbefore, List.nil_append] at hlost hafter
        -- What was forgotten and what is held instead are two.
        obtain ⟨link, hlink⟩ := hturn.link_of_lost hlost
        have hlength := hafter.unclosed_perm.length_eq
        have hpos := List.length_pos_iff.mpr hlost
        have hle := hone _ List.prefix_rfl
        rw [hlink, Option.toList_some, List.length_append, List.length_singleton] at hlength
        omega
      · intro hnone
        obtain ⟨hbefore, hlost⟩ := List.append_eq_nil_iff.mp hnone
        rw [hlost] at hturn
        have hbooks := s.books_calls db elapsed cs
        rw [hbefore] at hbooks
        exact hturn.oneAtATime hbooks (ih.mpr hbefore)

theorem call_disconnect_link : (s.call w .disconnect).link = none := by
  rw [call, Call.action, perform_disconnect]
  cases w.link <;> rfl

/-- No more than one connection is ever unclosed exactly if no call forgets one. What is unclosed
after some calls is the connection held and all that were forgotten, which a disconnection leaves
unclosed, and every other connection opened is closed once. -/
theorem unclosed_calls (s : Source) (db : Database) (elapsed : Number.Binary64)
    (cs : List Call) :
    (OneAtATime (s.calls (.initial db elapsed) cs).trace ↔
        s.allForgotten (.initial db elapsed) cs = []) ∧
      (unclosed (s.calls (.initial db elapsed) cs).trace).Perm
        ((s.calls (.initial db elapsed) cs).link.toList ++
          s.allForgotten (.initial db elapsed) cs) ∧
      (∀ c ∈ [Call.disconnect, Call.exit],
        (unclosed (s.call (s.calls (.initial db elapsed) cs) c).trace).Perm
          (s.allForgotten (.initial db elapsed) cs)) ∧
      ∀ t, t <+: (s.calls (.initial db elapsed) cs).trace →
        (opened t).Nodup ∧ (opened t).Perm (closed t ++ unclosed t) := by
  have hbooks := s.books_calls db elapsed cs
  refine ⟨oneAtATime_calls_iff db elapsed cs, hbooks.unclosed_perm, ?_,
    fun t ht => hbooks.paired ht⟩
  have hdisconnect : (unclosed (s.call (s.calls (.initial db elapsed) cs) .disconnect).trace).Perm
      (s.allForgotten (.initial db elapsed) cs) := by
    have h := (hbooks.turn (turn_disconnect (s := s))).unclosed_perm
    rwa [call_disconnect_link, Option.toList_none, List.nil_append, List.append_nil] at h
  intro c hc
  rcases List.mem_pair.mp hc with rfl | rfl
  · exact hdisconnect
  · exact hdisconnect

/-- A source that connects twice leaves its first connection unclosed, even when it disconnects. -/
theorem not_oneAtATime_connect_connect :
    ¬ (∀ (s : Source) (db : Database) (elapsed : Number.Binary64) (cs : List Call),
      OneAtATime (s.calls (.initial db elapsed) cs).trace ∧
        unclosed (s.call (s.calls (.initial db elapsed) cs) .disconnect).trace = []) := by
  intro h
  have hone := (h ⟨"db".toList, .text ":memory:".toList, .bool false, []⟩ ⟨[], [], 0⟩
    ⟨false, 0, 0⟩ [.connect, .connect]).2
  revert hone
  decide

end Source

end QuerySplice
