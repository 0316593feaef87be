import QuerySplice.Proofs.Sources
import QuerySplice.Session.Shell

/-!
# Sessions in an ordinary world

In an ordinary world the database answers every statement with a table or with a failure of its
own, and the clock shows finite times. A world that is ordinary stays so, and the faults of running
a statement on a source are faults that a session reports. A shell whose settings have their types
keeps these types.
-/

namespace QuerySplice

open Text

/-- Every result can be fetched, or fails to be by a fault of the database, and a query takes a
finite time. -/
structure World.Ordinary (w : World) : Prop where
  delivers : ∀ fault, Reply.result (.error fault) ∈ w.database.replies →
    ∃ source message, fault = .database source message
  finite : w.elapsed.isFinite = true

variable {w w' : World}

theorem World.Ordinary.of_later (h : w.Ordinary) (helapsed : w'.elapsed = w.elapsed)
    (hreplies : w'.database.replies <:+ w.database.replies) : w'.Ordinary where
  delivers := by
    intro fault hfault
    exact h.delivers fault (hreplies.subset hfault)
  finite := helapsed ▸ h.finite

/-- The faults that a session reports. -/
def Fault.Reported (fault : Fault) : Prop := fault.isReported = true

theorem Fault.reported_database (source message : Text) :
    (Fault.database source message).Reported := rfl

/-- The faults that end a session. -/
def Fault.Unreported (fault : Fault) : Prop := fault.isReported = false

theorem Fault.Reported.not_unreported {fault : Fault} (h : fault.Reported) :
    ¬ fault.Unreported := by
  rw [Reported] at h
  simp [Unreported, h]

namespace Action

variable {α : Type} {E : Fault → Prop}

theorem meets_emit (event : Event) :
    Meets World.Ordinary (fun _ => True) E (emit event) :=
  meets_modify fun _ hw => hw.of_later rfl List.suffix_rfl

theorem meets_print (text : Text) : Meets World.Ordinary (fun _ => True) E (print text) :=
  meets_emit _

theorem not_faults_print (text : Text) (w : World) : ¬ Faults E (print text) w :=
  not_faults_modify _

/-- Where the reported faults are reported, the others remain. -/
theorem faults_tryCatch_report {action : Action α} {report : Fault → Action α}
    (h : ∀ fault w, ¬ Faults (fun _ => True) (report fault) w) :
    Faults (fun _ => True)
        (tryCatch action fun fault =>
          if fault.isReported then report fault else throw fault) w ↔
      Faults Fault.Unreported action w := by
  rw [faults_tryCatch]
  constructor
  · rintro ⟨fault, w', hfault, hhandle⟩
    refine ⟨fault, by rw [hfault], ?_⟩
    by_contra hreported
    rw [if_pos (by simpa [Fault.Unreported] using hreported)] at hhandle
    exact h fault w' hhandle
  · rintro ⟨fault, hfault, hunreported⟩
    refine ⟨fault, (action.perform w).2, Prod.ext hfault rfl, ?_⟩
    rw [if_neg (by simpa [Fault.Unreported] using hunreported)]
    exact ⟨fault, rfl, trivial⟩

end Action

open QuerySplice.Action

/-! ## Sources -/

namespace Source

variable (s : Source)

theorem meets_ensureConnected :
    Meets World.Ordinary (fun _ => True) Fault.Reported s.ensureConnected := by
  intro w hw
  rw [perform_ensureConnected]
  split
  · exact ⟨hw, fun _ _ => trivial, nofun⟩
  · have h := s.connecting w
    generalize s.connect.perform w = outcome at h
    cases h with
    | refused hanswer hopened hreplies =>
        refine ⟨hw.of_later rfl hreplies, nofun, ?_⟩
        rintro fault ⟨⟩
        exact Fault.reported_database _ _
    | failed hanswer hsetup hopened hreplies =>
        refine ⟨hw.of_later rfl hreplies, nofun, ?_⟩
        rintro fault ⟨⟩
        exact Fault.reported_database _ _
    | connected hanswer hopened hreplies =>
        exact ⟨hw.of_later rfl hreplies, fun _ _ => trivial, nofun⟩

/-- An ordinary answer is a table or a fault that is reported. -/
theorem reported_of_fetched (hw : w.Ordinary) {fault : Fault}
    (h : s.fetched w.database.execute.1 = .error fault) : fault.Reported := by
  cases hanswer : w.database.execute.1 with
  | error message =>
      rw [hanswer] at h
      cases h
      exact Fault.reported_database _ _
  | ok fetch =>
      rw [hanswer, fetched] at h
      subst h
      rcases w.database.mem_replies_of_execute hanswer with hmem | hempty
      · obtain ⟨source, message, rfl⟩ := hw.delivers fault hmem
        exact Fault.reported_database _ _
      · cases hempty

theorem meets_query (sql : Text) :
    Meets World.Ordinary (fun _ => True) Fault.Reported (s.query sql) := by
  intro w hw
  rw [perform_query]
  obtain ⟨hw', hok, herror⟩ := s.meets_ensureConnected w hw
  generalize s.ensureConnected.perform w = outcome at hw' hok herror ⊢
  rcases outcome with ⟨fault | _, w'⟩
  · refine ⟨hw', nofun, ?_⟩
    rintro fault' ⟨⟩
    exact herror fault rfl
  · cases hlink : w'.link with
    | none =>
        simp only [hlink]
        exact ⟨hw'.of_later rfl List.suffix_rfl, fun _ _ => trivial, nofun⟩
    | some link =>
        simp only [hlink]
        refine ⟨hw'.of_later rfl w'.database.execute_database.2, fun _ _ => trivial, ?_⟩
        intro fault hfault
        exact s.reported_of_fetched hw' hfault

end Source

/-! ## Executors and browsers -/

/-- Beside its query, running puts records into the log and counts. -/
theorem Executor.meets_run_of {I : World → Prop} {E : Fault → Prop} {s : Source}
    (hlog : ∀ r, Meets I (fun _ => True) E (emit (.log r)))
    (hcount : ∀ w n, I w → I { w with queries := n })
    (hquery : ∀ sql, Meets I (fun _ => True) E (s.query sql)) (x : Executor) :
    Meets I (fun _ => True) E (x.run s) := by
  unfold Executor.run
  refine meets_bind meets_get fun _ _ => ?_
  refine meets_bind (meets_modify fun w hw => hcount w _ hw) fun _ _ => ?_
  refine meets_bind (meets_forM hlog) fun _ _ => ?_
  split
  · refine meets_bind (hlog _) fun _ _ => ?_
    exact meets_bind (hquery _) fun _ _ => meets_bind (hlog _) fun _ _ => meets_pure trivial
  · exact meets_bind (hquery _) fun _ _ => meets_bind (hlog _) fun _ _ => meets_pure trivial

theorem Executor.meets_run (x : Executor) (s : Source) :
    Meets World.Ordinary (fun _ => True) Fault.Reported (x.run s) :=
  meets_run_of (fun _ => meets_emit _) (fun _ _ hw => hw.of_later rfl List.suffix_rfl)
    s.meets_query x

theorem Executor.not_faults_run (x : Executor) (s : Source) (hw : w.Ordinary) :
    ¬ Faults Fault.Unreported (x.run s) w := by
  intro hfaults
  obtain ⟨fault, hreported, hunreported⟩ := (x.meets_run s).exists_fault hw hfaults
  exact hreported.not_unreported hunreported

/-- What executors keep of a world, fetching a page keeps. -/
theorem Browser.meets_fetch_of {I : World → Prop} {source : Source}
    (hrun : ∀ x : Executor, Meets I (fun _ => True) (fun _ => True) (x.run source))
    (b : Browser) (sql : Text) (time : Time.Stamp) (direction : Text)
    (row : List (Text × Value)) :
    Meets I (fun _ => True) (fun _ => True) (b.fetch source sql time direction row) := by
  unfold Browser.fetch
  refine meets_bind (meets_liftM (fun _ _ => trivial) fun _ _ => trivial) fun page _ => ?_
  rw [Executor.once_execute]
  exact hrun _

theorem Browser.meets_fetch (b : Browser) (source : Source) (sql : Text) (time : Time.Stamp)
    (direction : Text) (row : List (Text × Value)) :
    Meets World.Ordinary (fun _ => True) (fun _ => True)
      (b.fetch source sql time direction row) :=
  meets_fetch_of (fun x => (x.meets_run source).mono fun _ _ => trivial) b sql time direction row

/-! ## Tables -/

/-- Reading the values of the table ends in a fault that a session does not report. -/
def Table.Unreadable (t : Table) : Prop := ∃ fault, t.fault = some fault ∧ fault.Unreported

theorem Table.lines_cases (t : Table) {elapsed : Number.Binary64}
    (helapsed : elapsed.isFinite = true) :
    (∃ fault, t.fault = some fault ∧ t.lines elapsed = .error fault) ∨
      t.fault = none ∧ ∃ lines, t.lines elapsed = .ok lines := by
  unfold lines readable
  cases hfault : t.fault with
  | none => exact Or.inr ⟨rfl, _, if_pos helapsed⟩
  | some fault => exact Or.inl ⟨fault, rfl, rfl⟩

namespace Shell

/-- Showing a table ends in the fault that reading its values ends in. -/
theorem faults_display {E : Fault → Prop} (t : Table) (hw : w.Ordinary) :
    Faults E (display t) w ↔ ∃ fault, t.fault = some fault ∧ E fault := by
  have hprint : ∀ {lines : List Text} {w'}, ¬ Faults E (lines.forM print) w' :=
    not_faults_forM fun _ _ => not_faults_modify _
  simp only [display, faults_bind, perform_get, not_faults_get, false_or, faults_liftM,
    perform_liftM, Prod.mk.injEq, Except.ok.injEq, hprint, and_false, exists_false, or_false]
  rcases t.lines_cases hw.finite with ⟨fault, hfault, hlines⟩ | ⟨hfault, lines, hlines⟩
  · simp [hfault, hlines]
  · simp [hfault, hlines]

theorem meets_display {I : World → Prop}
    (hprint : ∀ text, Meets I (fun _ => True) (fun _ => True) (print text)) (t : Table) :
    Meets I (fun _ => True) (fun _ => True) (display t) := by
  unfold display
  refine meets_bind meets_get fun _ _ => ?_
  refine meets_bind (meets_liftM (fun _ _ => trivial) fun _ _ => trivial) fun _ _ => ?_
  exact meets_forM hprint

end Shell

/-! ## Shells whose settings have their types -/

/-- Every setting of the shell is of the type it is used at. -/
structure Shell.IsTyped (sh : Shell) : Prop where
  limit : ∃ n, sh.limit = .int n
  order : ∀ o ∈ sh.order, ∃ column, o.1 = .text column
  column : ∃ column, sh.browser.timeColumn = .text column
  pageLimit : ∃ n, sh.browser.limit = .int n
  filterColumns : ∀ v ∈ sh.browser.filterColumns, ∃ column, v = .text column

theorem Processor.ofOrder_text (column : Text) (order : Sql.Order) (sql : Text) :
    ∃ p, Processor.ofOrder (.text column) order sql = .ok p := by
  unfold Processor.ofOrder
  generalize (if (Value.text column).isSet = true then (Value.text column).shown else []) = name
  dsimp only
  split
  · exact ⟨_, rfl⟩
  · exact ⟨_, rfl⟩

namespace Shell

variable {sh : Shell} {w : World}

theorem IsTyped.perform_processors (h : sh.IsTyped) (statement : Text) (w : World) :
    ∃ ps, (sh.processors statement).perform w = (.ok ps, w) := by
  obtain ⟨n, hlimit⟩ := h.limit
  cases horder : sh.order with
  | none =>
      refine ⟨[.limit (.whole n)], ?_⟩
      simp only [processors, horder, hlimit, perform_bind, perform_tryCatch]
      rfl
  | some o =>
      obtain ⟨column, hcolumn⟩ := h.order o horder
      obtain ⟨p, hp⟩ := Processor.ofOrder_text column o.2 statement
      refine ⟨[p, .limit (.whole n)], ?_⟩
      rw [← hcolumn] at hp
      simp only [processors, horder, hlimit, Option.toList_some, List.mapM_cons, List.mapM_nil,
        perform_bind, perform_tryCatch, perform_liftM, hp, perform_pure]
      rfl

theorem fieldNamed_text (row : List (Text × Value)) (column : Text) :
    Value.fieldNamed row (.text column) = .ok (Value.field? row column) := rfl

theorem IsTyped.exists_filters (h : sh.IsTyped) (row : List (Text × Value)) :
    ∃ filters, sh.browser.filters row = .ok filters := by
  have hcolumns : ∃ filters, sh.browser.filterColumns.mapM (Browser.filter? row) = .ok filters := by
    have hall := h.filterColumns
    generalize sh.browser.filterColumns = columns at hall
    induction columns with
    | nil => exact ⟨[], rfl⟩
    | cons v columns ih =>
        obtain ⟨column, rfl⟩ := hall v List.mem_cons_self
        obtain ⟨filters, hfilters⟩ := ih fun v hv => hall v (List.mem_cons_of_mem _ hv)
        obtain ⟨filter, hfilter⟩ : ∃ filter, Browser.filter? row (.text column) = .ok filter := by
          rw [Browser.filter?, fieldNamed_text]
          rcases Value.field? row column with _ | v
          · exact ⟨_, rfl⟩
          · cases v <;> exact ⟨_, rfl⟩
        refine ⟨filter :: filters, ?_⟩
        rw [List.mapM_cons, hfilter, hfilters]
        rfl
  obtain ⟨filters, hfilters⟩ := hcolumns
  unfold Browser.filters
  split
  · exact ⟨[], rfl⟩
  · exact ⟨filters.reduceOption, by rw [hfilters]; rfl⟩

/-- A page lacks its time, or has a direction that is not known, or can be made. -/
theorem IsTyped.page_cases (h : sh.IsTyped) (sql : Text) (time : Time.Stamp) (direction : Text)
    (row : List (Text × Value)) :
    time.expression? = none ∧ sh.browser.page sql time direction row = .error .dateOutOfRange ∨
      time.expression? ≠ none ∧
        (sh.browser.page sql time direction row = .error (.unknownDirection direction) ∨
          ∃ page, sh.browser.page sql time direction row = .ok page) := by
  obtain ⟨column, hcolumn⟩ := h.column
  obtain ⟨n, hlimit⟩ := h.pageLimit
  obtain ⟨filters, hfilters⟩ := h.exists_filters row
  cases htime : time.expression? with
  | none => exact Or.inl ⟨rfl, by rw [Browser.page, htime]⟩
  | some expression =>
      refine Or.inr ⟨nofun, ?_⟩
      simp only [Browser.page, htime, hfilters]
      cases hread : Sql.Direction.read? direction with
      | none => exact Or.inl rfl
      | some read =>
          right
          simp only [Sql.PageRequest.page?, Sql.PageRequest.page, hread, hcolumn, hlimit]
          split
          · exact ⟨_, rfl⟩
          · exact ⟨_, rfl⟩

theorem IsTyped.with_buffer (h : sh.IsTyped) (buffer : List Text) :
    { sh with buffer }.IsTyped :=
  ⟨h.limit, h.order, h.column, h.pageLimit, h.filterColumns⟩

/-! ## What a shell keeps -/

theorem IsTyped.meets_runStatement (h : sh.IsTyped) (statement : Text) :
    Meets World.Ordinary IsTyped (fun _ => True) (sh.runStatement statement) := by
  have hprocessors : Meets World.Ordinary (fun _ => True) (fun _ => True)
      (sh.processors statement) := by
    intro w hw
    obtain ⟨ps, hps⟩ := h.perform_processors statement w
    rw [hps]
    exact ⟨hw, fun _ _ => trivial, fun _ _ => trivial⟩
  unfold runStatement
  split
  · exact meets_pure h
  · refine meets_bind hprocessors fun ps _ => ?_
    refine meets_tryCatch (E := fun _ => True) ?_ ?_
    · refine meets_bind ((Executor.meets_run _ _).mono fun _ _ => trivial) fun t _ => ?_
      split
      · refine meets_bind (meets_print _) fun _ _ => ?_
        refine meets_bind (meets_display meets_print t) fun _ _ => ?_
        exact meets_pure ⟨h.limit, h.order, h.column, h.pageLimit, h.filterColumns⟩
      · refine meets_bind (meets_display meets_print t) fun _ _ => ?_
        exact meets_pure ⟨h.limit, h.order, h.column, h.pageLimit, h.filterColumns⟩
    · intro fault _
      split
      · exact meets_bind (meets_print _) fun _ _ => meets_pure h
      · exact meets_throw trivial

/-- What prints and executors keep of a world, a page keeps. -/
theorem meets_showPage {I : World → Prop} {sh : Shell}
    (hprint : ∀ text, Meets I (fun _ => True) (fun _ => True) (print text))
    (hrun : ∀ x : Executor, Meets I (fun _ => True) (fun _ => True) (x.run sh.source))
    (index : Nat) (direction : Text) :
    Meets I (fun _ => True) (fun _ => True) (sh.showPage index direction) := by
  unfold showPage
  split
  · exact hprint _
  · split
    · exact hprint _
    · refine meets_bind (meets_liftM (fun _ _ => trivial) fun _ _ => trivial) fun field _ => ?_
      split
      · refine meets_tryCatch (E := fun _ => True) ?_ ?_
        · exact meets_bind (sh.browser.meets_fetch_of hrun _ _ _ _) fun page _ =>
            meets_display hprint page
        · intro fault _
          split
          · exact hprint _
          · exact meets_throw trivial
      · exact hprint _

theorem IsTyped.meets_runShortcut (h : sh.IsTyped) (line : Text) :
    Meets World.Ordinary IsTyped (fun _ => True) (sh.runShortcut line) := by
  unfold runShortcut
  split
  · refine meets_bind (meets_print _) fun _ _ => ?_
    exact meets_pure ⟨h.limit, h.order, h.column, h.pageLimit, h.filterColumns⟩
  · refine meets_bind (meets_liftM (fun _ _ => trivial) fun _ _ => trivial) fun limit _ => ?_
    refine meets_bind (meets_print _) fun _ _ => ?_
    exact meets_pure ⟨⟨limit, rfl⟩, h.order, h.column, h.pageLimit, h.filterColumns⟩
  · refine meets_bind (meets_liftM (fun _ _ => trivial) fun _ _ => trivial) fun index _ => ?_
    have hrun : ∀ x : Executor,
        Meets World.Ordinary (fun _ => True) (fun _ => True) (x.run sh.source) :=
      fun x => (x.meets_run sh.source).mono fun _ _ => trivial
    exact meets_bind (meets_showPage meets_print hrun _ _) fun _ _ => meets_pure h
  · refine meets_bind (meets_print _) fun _ _ => meets_bind (meets_print _) fun _ _ => ?_
    exact meets_pure h

/-- A shell keeps the types of its settings, and an ordinary world stays ordinary. -/
theorem IsTyped.meets_take (h : sh.IsTyped) (input : Input) :
    Meets World.Ordinary (fun next => ∀ sh' ∈ next, sh'.IsTyped) (fun _ => True)
      (sh.take input) := by
  have hsome : ∀ {sh' : Shell}, sh'.IsTyped → ∀ sh'' ∈ some sh', sh''.IsTyped := by
    rintro sh' h' sh'' ⟨⟩
    exact h'
  cases input with
  | interrupt =>
      exact meets_bind (meets_print _) fun _ _ => meets_pure (hsome (h.with_buffer []))
  | line line =>
      simp only [take, takeLine]
      cases Reading.ofLine sh.buffer line with
      | exit => exact meets_pure nofun
      | gathered buffer => exact meets_pure (hsome (h.with_buffer buffer))
      | shortcut => exact meets_bind (h.meets_runShortcut line) fun _ h' => meets_pure (hsome h')
      | statement lines =>
          exact meets_bind ((h.with_buffer []).meets_runStatement _) fun _ h' =>
            meets_pure (hsome h')

end Shell

end QuerySplice
