import Mathlib.Data.List.TakeWhile
import QuerySplice.Proofs.Sessions

/-!
# Inputs that break a shell

A shell whose settings have their types, in an ordinary world, ends in a fault only at an input of
three kinds: a shortcut with a number that cannot be read, a page around a time that has no
universal time in the calendar, and a statement or a page whose result cannot be read, by a fault
that is not reported. All other faults are reported.
-/

namespace QuerySplice

open Text QuerySplice.Action

/-! ## Numbers -/

theorem readNatFrom_isSome_iff {s : Text} (h : '_' ∉ s) (n : Nat) (afterDigit : Bool) :
    (readNatFrom n afterDigit s).isSome = true ↔
      s.all isDecimal = true ∧ (s ≠ [] ∨ afterDigit = true) := by
  induction s generalizing n afterDigit with
  | nil => cases afterDigit <;> simp [readNatFrom]
  | cons c s ih =>
      obtain ⟨hc, hs⟩ := not_or.mp (List.mem_cons.not.mp h)
      cases hdigit : digitValue? c with
      | some d => simp [readNatFrom, hdigit, ih hs, isDecimal]
      | none => simp [readNatFrom, hdigit, isDecimal, Ne.symm hc]

namespace Shell

/-- Digits that are all decimal, and not too many of them. -/
def IsNumber (s : Text) : Prop := s.all isDecimal = true ∧ s.length ≤ mostDigits

/-- A text of digits is read as a number exactly if it is one. -/
theorem number_cases {s : Text} (h : looksLikeNumber s = true) :
    IsNumber s ∧ (∃ n, number s = .ok n) ∨ ¬ IsNumber s ∧ ∃ fault, number s = .error fault := by
  simp only [looksLikeNumber, Bool.and_eq_true, Bool.not_eq_true', List.isEmpty_eq_false_iff,
    List.all_eq_true] at h
  have hunderscore : '_' ∉ s := by
    intro hmem
    exact absurd (h.2 _ hmem) (by decide)
  have hread := readNatFrom_isSome_iff hunderscore 0 false
  rw [← readNat?] at hread
  unfold number IsNumber
  by_cases hall : s.all isDecimal = true
  · have htake : s.takeWhile isDecimal = s :=
      List.takeWhile_eq_self_iff.mpr (List.all_eq_true.mp hall)
    obtain ⟨n, hn⟩ := Option.isSome_iff_exists.mp (hread.mpr ⟨hall, Or.inl h.1⟩)
    by_cases hlength : mostDigits < s.length
    · simp [htake, hlength, Nat.not_le.mpr hlength]
    · simp [htake, hlength, hn, hall, Nat.not_lt.mp hlength]
  · have hnone : readNat? s = none := by
      rw [← Option.not_isSome_iff_eq_none, hread]
      exact fun hread => hall hread.1
    refine Or.inr ⟨fun hnumber => hall hnumber.1, ?_⟩
    simp only [hnone]
    split <;> exact ⟨_, rfl⟩

/-- Shortcuts with a number have one that looks like a number. -/
theorem looksLikeNumber_of_ofLine {line digits : Text}
    (h : Shortcut.ofLine line = .setLimit digits ∨
      ∃ direction, Shortcut.ofLine line = .showPage digits direction) :
    looksLikeNumber digits = true := by
  unfold Shortcut.ofLine at h
  dsimp only at h
  split at h
  · simp at h
  · split at h
    · split at h
      · simp at h
      · next hlooks =>
          split at h
          · simp_all
          · split at h
            · simp_all
            · simp at h
    · split at h
      · simp_all
      · simp at h
    · simp at h

variable {sh : Shell} {w : World}

/-! ## Pages -/

/-- Fetching a page ends in a fault that is not reported exactly if its time has no universal time
in the calendar. -/
theorem IsTyped.faults_fetch (h : sh.IsTyped) (hw : w.Ordinary) (sql : Text) (time : Time.Stamp)
    (direction : Text) (row : List (Text × Value)) :
    Faults Fault.Unreported (sh.browser.fetch sh.source sql time direction row) w ↔
      time.expression? = none := by
  rw [Browser.fetch, faults_bind, faults_liftM, perform_liftM]
  rcases h.page_cases sql time direction row with ⟨htime, hpage⟩ | ⟨htime, hpage | ⟨page, hpage⟩⟩
  · simp only [hpage, htime, iff_true]
    exact Or.inl ⟨_, rfl, rfl⟩
  · simp only [hpage, htime, iff_false]
    rintro (⟨fault, ⟨⟩, hunreported⟩ | ⟨page, w', ⟨⟩, -⟩)
    exact absurd hunreported (by simp [Fault.Unreported, Fault.isReported])
  · simp only [hpage, htime, iff_false]
    rintro (⟨fault, ⟨⟩, -⟩ | ⟨page, w', ⟨⟩, hfaults⟩)
    exact Executor.not_faults_run _ sh.source hw hfaults

/-- A page around a time cannot be shown: there is no universal time for it in the calendar, or
the page that is fetched cannot be read. -/
def FetchBreaks (sh : Shell) (w : World) (sql : Text) (time : Time.Stamp) (direction : Text)
    (row : List (Text × Value)) : Prop :=
  time.expression? = none ∨
    ∃ page w', (sh.browser.fetch sh.source sql time direction row).perform w = (.ok page, w') ∧
      page.Unreadable

theorem IsTyped.faults_reporting_fetch (h : sh.IsTyped) (hw : w.Ordinary) (sql : Text)
    (time : Time.Stamp) (direction : Text) (row : List (Text × Value)) :
    Faults (fun _ => True)
        (Action.reporting do
          display (← sh.browser.fetch sh.source sql time direction row)) w ↔
      sh.FetchBreaks w sql time direction row := by
  have hdisplay : ∀ page w',
      (sh.browser.fetch sh.source sql time direction row).perform w = (.ok page, w') →
        (Faults Fault.Unreported (display page) w' ↔ page.Unreadable) := by
    intro page w' hfetch
    have hw' := (sh.browser.meets_fetch sh.source sql time direction row w hw).1
    rw [hfetch] at hw'
    exact faults_display page hw'
  rw [Action.reporting, faults_tryCatch_report fun _ _ => not_faults_print _ _, faults_bind,
    h.faults_fetch hw, FetchBreaks]
  apply or_congr Iff.rfl
  exact exists_congr fun page => exists_congr fun w' => and_congr_right (hdisplay page w')

/-- The page around a row cannot be shown. -/
def PageBreaks (sh : Shell) (w : World) (index : Nat) (direction : Text) : Prop :=
  ∃ sql t row time zone, sh.last = some (sql, t) ∧ t.rows[index]? = some row ∧
    Value.fieldNamed (t.record row) sh.browser.timeColumn = .ok (some (.time time zone)) ∧
    sh.FetchBreaks w sql time direction (t.record row)

theorem IsTyped.faults_showPage (h : sh.IsTyped) (hw : w.Ordinary) (index : Nat)
    (direction : Text) :
    Faults (fun _ => True) (sh.showPage index direction) w ↔ sh.PageBreaks w index direction := by
  obtain ⟨column, hcolumn⟩ := h.column
  unfold showPage PageBreaks
  split
  · next hlast => simp [hlast, not_faults_print]
  · next sql t hlast =>
      split
      · next hrow => simp [hlast, hrow, not_faults_print]
      · next row hrow =>
          have hfield := fieldNamed_text (t.record row) column
          rw [← hcolumn] at hfield
          dsimp only
          rw [faults_bind_of_ok (by rw [hfield]; rfl)]
          split
          · next time zone htime =>
              rw [h.faults_reporting_fetch hw]
              simp [hlast, hrow, hfield, htime]
          · next htime =>
              refine iff_of_false (not_faults_print _ _) ?_
              rintro ⟨sql', t', row', time, zone, hlast', hrow', hrecord, -⟩
              cases hlast.symm.trans hlast'
              cases hrow.symm.trans hrow'
              exact htime time zone (Except.ok.inj (hfield.symm.trans hrecord))

/-! ## Statements -/

/-- The result of a statement cannot be read. -/
def StatementBreaks (sh : Shell) (w : World) (statement : Text) : Prop :=
  isBlankStatement statement = false ∧
    ∃ ps t w', (sh.processors statement).perform w = (.ok ps, w) ∧
      (((Executor.ofProcessors ps).prepare statement).run sh.source).perform w = (.ok t, w') ∧
      t.Unreadable

theorem not_faults_print_pure {E : Fault → Prop} {α : Type} (text : Text) (a : α) (w : World) :
    ¬ Faults E (do Action.print text; pure a) w := by
  simp only [faults_bind, not_faults_print, not_faults_pure, and_false, exists_false, or_self,
    not_false_iff]

/-- With its query or without, showing a result ends in a fault that is not reported exactly if
reading it does. -/
theorem faults_showing {α : Type} (shown : Bool) (query : Text) (t : Table) (a : α)
    (hw : w.Ordinary) :
    Faults Fault.Unreported
        (if shown = true then do
            Action.print query
            display t
            pure a
          else do
            display t
            pure a) w ↔ t.Unreadable := by
  have hdisplay : ∀ {w : World}, w.Ordinary →
      (Faults Fault.Unreported (do display t; pure a) w ↔ t.Unreadable) := by
    intro w hw
    simp only [faults_bind, faults_display t hw, not_faults_pure, and_false, exists_false, or_false]
    exact Iff.rfl
  cases shown with
  | false => exact hdisplay hw
  | true =>
      have hprint : (print query).perform w = (.ok (), ((print query).perform w).2) := rfl
      have hprinted := (meets_print query (E := Fault.Reported) w hw).1
      simp only [if_true]
      rw [faults_bind_of_ok hprint]
      exact hdisplay hprinted

theorem IsTyped.faults_runStatement (h : sh.IsTyped) (hw : w.Ordinary) (statement : Text) :
    Faults (fun _ => True) (sh.runStatement statement) w ↔ sh.StatementBreaks w statement := by
  obtain ⟨ps, hps⟩ := h.perform_processors statement w
  unfold runStatement StatementBreaks
  cases hblank : isBlankStatement statement with
  | true => simp
  | false =>
      simp only [Bool.false_eq_true, if_false, true_and]
      rw [faults_bind_of_ok hps, faults_tryCatch_report (fun _ _ => not_faults_print_pure _ _ _),
        faults_bind]
      have hmeets := Executor.meets_run ((Executor.ofProcessors ps).prepare statement) sh.source
      constructor
      · rintro (hfaults | ⟨t, w', ht, hfaults⟩)
        · exact absurd hfaults (Executor.not_faults_run _ sh.source hw)
        · have hw' := (hmeets w hw).1
          rw [ht] at hw'
          exact ⟨ps, t, w', hps, ht, (faults_showing _ _ t _ hw').mp hfaults⟩
      · rintro ⟨ps', t, w', hps', ht, hunreadable⟩
        cases hps.symm.trans hps'
        have hw' := (hmeets w hw).1
        rw [ht] at hw'
        exact Or.inr ⟨t, w', ht, (faults_showing _ _ t _ hw').mpr hunreadable⟩

/-! ## Inputs -/

/-- The shortcut has a number that is none, or asks for a page that cannot be shown. -/
def ShortcutBreaks (sh : Shell) (w : World) (line : Text) : Prop :=
  match Shortcut.ofLine line with
  | .toggleQuery | .unknown => False
  | .setLimit digits => ¬ IsNumber digits
  | .showPage digits direction =>
    ¬ IsNumber digits ∨
      ∃ n, number digits = .ok n ∧ sh.PageBreaks w n (direction.getD sh.pageDirection)

/-- The input ends the shell in a fault when it is taken in the world `w`. -/
def Breaks (sh : Shell) (w : World) : Input → Prop
  | .interrupt => False
  | .line line =>
    match Reading.ofLine sh.buffer line with
    | .exit | .gathered _ => False
    | .shortcut => sh.ShortcutBreaks w line
    | .statement lines =>
      { sh with buffer := [] }.StatementBreaks w (List.intercalate ['\n'] lines)

theorem IsTyped.faults_runShortcut (h : sh.IsTyped) (hw : w.Ordinary) (line : Text) :
    Faults (fun _ => True) (sh.runShortcut line) w ↔ sh.ShortcutBreaks w line := by
  unfold runShortcut ShortcutBreaks
  cases hline : Shortcut.ofLine line with
  | toggleQuery => simp only [not_faults_print_pure]
  | unknown =>
      refine iff_of_false ?_ id
      simp only [faults_bind, not_faults_print, not_faults_pure, and_false, exists_false, or_self,
        not_false_iff]
  | setLimit digits =>
      rcases number_cases (looksLikeNumber_of_ofLine (Or.inl hline)) with
        ⟨hnumber, n, hn⟩ | ⟨hnumber, fault, hfault⟩
      · have hread : (liftM (number digits) : Action Nat).perform w = (.ok n, w) := by
          rw [hn]
          rfl
        dsimp only
        rw [faults_bind_of_ok hread]
        exact iff_of_false (not_faults_print_pure _ _ _) (not_not.mpr hnumber)
      · refine iff_of_true ?_ hnumber
        rw [faults_bind, faults_liftM]
        exact Or.inl ⟨fault, hfault, trivial⟩
  | showPage digits direction =>
      rcases number_cases (looksLikeNumber_of_ofLine (Or.inr ⟨direction, hline⟩)) with
        ⟨hnumber, n, hn⟩ | ⟨hnumber, fault, hfault⟩
      · have hread : (liftM (number digits) : Action Nat).perform w = (.ok n, w) := by
          rw [hn]
          rfl
        dsimp only
        rw [faults_bind_of_ok hread, faults_bind, h.faults_showPage hw]
        simp [hnumber, hn]
      · refine iff_of_true ?_ (Or.inl hnumber)
        rw [faults_bind, faults_liftM]
        exact Or.inl ⟨fault, hfault, trivial⟩

/-- Taking an input ends in a fault exactly if the input is one of those that break the shell. -/
theorem IsTyped.faults_take (h : sh.IsTyped) (hw : w.Ordinary) (input : Input) :
    Faults (fun _ => True) (sh.take input) w ↔ sh.Breaks w input := by
  cases input with
  | interrupt => exact iff_of_false (not_faults_print_pure _ _ _) id
  | line line =>
      simp only [take, takeLine, Breaks]
      cases Reading.ofLine sh.buffer line with
      | exit => simp
      | gathered buffer => simp
      | shortcut =>
          rw [faults_bind, h.faults_runShortcut hw]
          simp
      | statement lines =>
          rw [faults_bind, (h.with_buffer []).faults_runStatement hw]
          simp

end Shell

end QuerySplice
