import Mathlib.Data.List.Infix
import QuerySplice.Session.Source
import QuerySplice.Proofs.Actions

/-!
# What a source does to the world

Each thing that can be asked of a source has one description of what it ends in and of the world
that it leads to: what is put into the trace, which connection is held, and whether the source
counts as connected. What is proved of sources elsewhere follows from these descriptions.
-/

namespace QuerySplice

open Text

namespace Database

/-- A database answers a request for a connection with the next number or refuses it. -/
theorem connect_cases (db : Database) :
    (∃ message db', db.connect = (.error message, db') ∧ db'.opened = db.opened ∧
        db'.replies = db.replies) ∨
      ∃ db', db.connect = (.ok db.opened, db') ∧ db'.opened = db.opened + 1 ∧
        db'.replies = db.replies := by
  unfold connect
  split
  · exact Or.inl ⟨_, _, rfl, rfl, rfl⟩
  · exact Or.inr ⟨_, rfl, rfl, rfl⟩
  · exact Or.inr ⟨_, rfl, rfl, rfl⟩

theorem eq_opened_of_connect (db : Database) {link : Nat} (h : db.connect.1 = .ok link) :
    link = db.opened := by
  rcases db.connect_cases with ⟨message, db', hconnect, -⟩ | ⟨db', hconnect, -⟩
  · rw [hconnect] at h
    cases h
  · rw [hconnect] at h
    cases h
    rfl

/-- A statement opens no connection and uses up one reply at most. -/
theorem execute_database (db : Database) :
    db.execute.2.opened = db.opened ∧ db.execute.2.replies <:+ db.replies := by
  unfold execute
  split
  · next h => exact ⟨rfl, h ▸ List.suffix_cons _ _⟩
  · next h => exact ⟨rfl, h ▸ List.suffix_cons _ _⟩
  · exact ⟨rfl, List.suffix_rfl⟩

/-- What is fetched was a reply, or nothing where the replies were used up. -/
theorem mem_replies_of_execute (db : Database) {fetch : Fetch} (h : db.execute.1 = .ok fetch) :
    Reply.result fetch ∈ db.replies ∨ fetch = .ok .empty := by
  unfold execute at h
  split at h
  · next hreplies =>
      cases h
      exact Or.inl (by simp [hreplies])
  · cases h
  · cases h
    exact Or.inr rfl

end Database

namespace Source

variable (s : Source) (w : World)

/-! ## Statements -/

/-- The world after a statement was sent on a connection. -/
def sent (link : Nat) (statement : Value) (w : World) : World :=
  { w with
    database := w.database.execute.2
    trace := w.trace ++ [.execute link statement w.database.execute.1.isOk] }

theorem perform_send (link : Nat) (statement : Value) :
    (s.send link statement).perform w =
      (w.database.execute.1.mapError (.database s.name), sent link statement w) := by
  simp only [send, Action.perform_bind, Action.perform_get]
  cases h : w.database.execute with
  | mk answer db => cases answer <;> simp [Action.perform_emit, sent, h, Except.mapError]

/-- The trace of statements that all succeeded. -/
def successes (link : Nat) (statements : List Value) : List Event :=
  statements.map fun statement => .execute link statement true

/-- Statements are sent up to the first one that fails. -/
theorem forM_send_cases (link : Nat) (statements : List Value) :
    (∃ db, db.opened = w.database.opened ∧ db.replies <:+ w.database.replies ∧
      (forM statements fun statement => do let _ ← s.send link statement : Action Unit).perform w =
        (.ok (), { w with database := db, trace := w.trace ++ successes link statements })) ∨
    ∃ done statement rest message db, statements = done ++ statement :: rest ∧
      db.opened = w.database.opened ∧ db.replies <:+ w.database.replies ∧
      (forM statements fun statement => do let _ ← s.send link statement : Action Unit).perform w =
        (.error (.database s.name message),
          { w with
            database := db
            trace := w.trace ++ (successes link done ++ [.execute link statement false]) }) := by
  induction statements generalizing w with
  | nil => exact Or.inl ⟨w.database, rfl, List.suffix_rfl, by simp [successes]⟩
  | cons statement statements ih =>
      obtain ⟨hopened, hreplies⟩ := w.database.execute_database
      simp only [List.forM_cons, Action.perform_bind, perform_send]
      cases hanswer : w.database.execute.1 with
      | error message =>
          refine Or.inr ⟨[], statement, statements, message, _, rfl, hopened, hreplies, ?_⟩
          simp [Except.mapError, sent, hanswer, successes, Except.isOk, Except.toBool]
      | ok fetch =>
          have hsent : sent link statement w =
              { w with
                database := w.database.execute.2
                trace := w.trace ++ [.execute link statement true] } := by
            rw [sent, hanswer]
            rfl
          simp only [Except.mapError, Action.perform_pure]
          rcases ih (sent link statement w) with
            ⟨db, ho, hr, h⟩ | ⟨done, st, rest, message, db, hs, ho, hr, h⟩
          · refine Or.inl ⟨db, ho.trans hopened, hr.trans hreplies, ?_⟩
            rw [h, hsent]
            simp [successes]
          · refine Or.inr ⟨statement :: done, st, rest, message, db, by rw [hs]; rfl,
              ho.trans hopened, hr.trans hreplies, ?_⟩
            rw [h, hsent]
            simp [successes]

/-! ## Connections -/

/-- The trace of asking for a connection. -/
def asking (link : Option Nat) : List Event :=
  [.log ⟨Log.info, logger, "Connecting to DuckDB at '".toList ++ (s.path.shown ++ "'".toList), []⟩,
    .connect s.path s.readOnly link]

/-- How connecting in the world `w` ends, and the world that it leads to. -/
inductive Connecting : Except Fault Unit × World → Prop
  | refused {message : Text} {db : Database} (hanswer : w.database.connect.1 = .error message)
      (hopened : db.opened = w.database.opened) (hreplies : db.replies <:+ w.database.replies) :
      Connecting (.error (.database s.name message),
        { w with database := db, trace := w.trace ++ s.asking none })
  | failed {done rest : List Value} {statement : Value} {message : Text} {db : Database}
      (hanswer : w.database.connect.1 = .ok w.database.opened)
      (hsetup : s.setup = done ++ statement :: rest) (hopened : db.opened = w.database.opened + 1)
      (hreplies : db.replies <:+ w.database.replies) :
      Connecting (.error (.database s.name message),
        { w with
          database := db
          link := some w.database.opened
          trace := w.trace ++ (s.asking (some w.database.opened) ++
            (successes w.database.opened done ++
              [.execute w.database.opened statement false])) })
  | connected {db : Database} (hanswer : w.database.connect.1 = .ok w.database.opened)
      (hopened : db.opened = w.database.opened + 1) (hreplies : db.replies <:+ w.database.replies) :
      Connecting (.ok (),
        { w with
          database := db
          link := some w.database.opened
          ready := true
          trace := w.trace ++ (s.asking (some w.database.opened) ++
            (successes w.database.opened s.setup ++
              [.log ⟨Log.info, logger,
                "Successfully connected to DuckDB: ".toList ++ s.name, []⟩])) })

/-- Connecting ends in one of these ways. -/
theorem connecting : s.Connecting w (s.connect.perform w) := by
  simp only [connect, openLink, log, Action.log, Action.perform_bind, Action.perform_emit,
    Action.perform_get, Action.perform_set, Action.perform_modify]
  rcases w.database.connect_cases with ⟨message, db, hconnect, ho, hr⟩ | ⟨db, hconnect, ho, hr⟩
  · simp only [hconnect, Action.perform_throw, List.append_assoc]
    exact .refused (by rw [hconnect]) ho (hr ▸ List.suffix_rfl)
  · simp only [hconnect, Action.perform_pure, List.append_assoc, List.cons_append,
      List.nil_append, List.forM_eq_forM]
    -- The connection is held from here on, whatever becomes of the statements.
    rcases s.forM_send_cases
        { w with
          database := db
          link := some w.database.opened
          trace := w.trace ++ s.asking (some w.database.opened) }
        w.database.opened s.setup with
      ⟨db', ho', hr', h⟩ | ⟨done, statement, rest, message, db', hsetup, ho', hr', h⟩
    · simp only [asking] at h
      simp only [Except.toOption, h, List.append_assoc]
      exact .connected (by rw [hconnect]) (ho'.trans ho) (hr'.trans (hr ▸ List.suffix_rfl))
    · simp only [asking] at h
      simp only [Except.toOption, h, List.append_assoc]
      exact .failed (by rw [hconnect]) hsetup (ho'.trans ho) (hr'.trans (hr ▸ List.suffix_rfl))

theorem perform_disconnect :
    s.disconnect.perform w =
      (.ok (), match w.link with
        | some link =>
          { w with
            link := none
            ready := false
            trace := w.trace ++ [.close link,
              .log ⟨Log.info, logger, "Disconnected from DuckDB: ".toList ++ s.name, []⟩] }
        | none => { w with ready := false }) := by
  simp only [disconnect, log, Action.log, Action.perform_bind, Action.perform_get]
  cases h : w.link with
  | none => simp [Action.perform_modify, h]
  | some link =>
      simp [Action.perform_bind, Action.perform_emit, Action.perform_modify]

theorem perform_ensureConnected :
    s.ensureConnected.perform w = if w.ready then (.ok (), w) else s.connect.perform w := by
  simp only [ensureConnected, Action.perform_bind, Action.perform_get]
  cases w.ready <;> rfl

/-! ## Queries -/

/-- The world after a query was announced in the log. -/
def announced (sql : Text) (w : World) : World :=
  { w with
    trace := w.trace ++ [.log ⟨Log.debug, logger,
      "Executing query on ".toList ++ s.name ++ ": ".toList ++ sql, []⟩] }

/-- What the answer to a query comes to for a source. -/
def fetched : Except Text Fetch → Except Fault Table
  | .ok fetch => fetch
  | .error message => .error (.database s.name message)

/-- A query goes to the connection held once the source is connected. -/
theorem perform_query (sql : Text) :
    (s.query sql).perform w =
      match s.ensureConnected.perform w with
      | (.error fault, w') => (.error fault, w')
      | (.ok (), w') =>
        match w'.link with
        | none => (.ok .empty, s.announced sql w')
        | some link =>
          (s.fetched w'.database.execute.1, sent link (.text sql) (s.announced sql w')) := by
  simp only [query, log, Action.log, Action.perform_bind, Action.perform_emit, Action.perform_get]
  cases s.ensureConnected.perform w with
  | mk result w' =>
      cases result with
      | error fault => rfl
      | ok =>
          cases hlink : w'.link with
          | none => simp [hlink, announced]
          | some link =>
              simp only [hlink, Action.perform_bind, perform_send]
              cases w'.database.execute.1 with
              | error message => simp only [Except.mapError, fetched, announced, hlink]
              | ok fetch =>
                  simp only [Except.mapError, fetched, announced, hlink, Action.perform_liftM]

end Source

end QuerySplice
