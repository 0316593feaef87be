import QuerySplice.Proofs.Sessions

/-!
# What statements and shortcuts come to

Each input that a shell acts on has one description of how it ends and of the shell that it leaves.
A statement completes, and is then kept with its result, or it leaves the shell as it is. A shortcut
changes one setting at most.
-/

namespace QuerySplice.Shell

open Text QuerySplice.Action

variable {sh sh' : Shell} {w w' : World} {statement line : Text}

/-! ## Statements -/

/-- Prints a result, behind its query if queries are shown. -/
def present (sh : Shell) (x : Executor) (t : Table) : Action Unit := do
  if sh.showQuery then Action.print x.last.query
  display t

/-- Runs a prepared statement and prints its result. -/
def attempt (sh : Shell) (x : Executor) : Action Table := do
  let t ← x.run sh.source
  sh.present x t
  return t

/-- A statement that these processors have prepared. -/
def prepared (ps : List Processor) (statement : Text) : Executor :=
  (Executor.ofProcessors ps).prepare statement

theorem runStatement_of_blank (h : isBlankStatement statement = true) :
    sh.runStatement statement = return sh := by
  unfold runStatement
  rw [h]
  rfl

theorem runStatement_of_not_blank (h : isBlankStatement statement = false) :
    sh.runStatement statement = (do
      let ps ← sh.processors statement
      tryCatch
        (do
          let t ← sh.attempt (prepared ps statement)
          return { sh with last := some (statement, t) })
        fun fault =>
          if fault.isReported then do
            Action.print ("error: ".toList ++ fault.message)
            return sh
          else throw fault) := by
  unfold runStatement attempt present prepared
  rw [h]
  cases sh.showQuery <;>
    simp only [if_true, if_false, Bool.false_eq_true, bind_assoc, pure_bind]

/-- How running a statement ends, and in which world. -/
inductive Running (sh : Shell) (statement : Text) (w : World) : Except Fault Shell × World → Prop
  | blank (hblank : isBlankStatement statement = true) : Running sh statement w (.ok sh, w)
  /-- The processors of the statement cannot be made. -/
  | unprepared {fault : Fault} {w' : World} (hblank : isBlankStatement statement = false)
      (hprocessors : (sh.processors statement).perform w = (.error fault, w')) :
      Running sh statement w (.error fault, w')
  /-- The statement fails and the fault is reported. -/
  | failed {ps : List Processor} {fault : Fault} {w₁ w₂ : World}
      (hblank : isBlankStatement statement = false)
      (hprocessors : (sh.processors statement).perform w = (.ok ps, w₁))
      (hattempt : (sh.attempt (prepared ps statement)).perform w₁ = (.error fault, w₂))
      (hreported : fault.Reported) :
      Running sh statement w (.ok sh,
        { w₂ with trace := w₂.trace ++ [.print ("error: ".toList ++ fault.message)] })
  /-- The statement fails by a fault that ends the shell. -/
  | broken {ps : List Processor} {fault : Fault} {w₁ w₂ : World}
      (hblank : isBlankStatement statement = false)
      (hprocessors : (sh.processors statement).perform w = (.ok ps, w₁))
      (hattempt : (sh.attempt (prepared ps statement)).perform w₁ = (.error fault, w₂))
      (hunreported : fault.Unreported) : Running sh statement w (.error fault, w₂)
  | completed {ps : List Processor} {t : Table} {w₁ w₂ : World}
      (hblank : isBlankStatement statement = false)
      (hprocessors : (sh.processors statement).perform w = (.ok ps, w₁))
      (hattempt : (sh.attempt (prepared ps statement)).perform w₁ = (.ok t, w₂)) :
      Running sh statement w (.ok { sh with last := some (statement, t) }, w₂)

theorem running (sh : Shell) (statement : Text) (w : World) :
    Running sh statement w ((sh.runStatement statement).perform w) := by
  cases hblank : isBlankStatement statement with
  | true =>
      rw [runStatement_of_blank hblank]
      exact .blank hblank
  | false =>
      rw [runStatement_of_not_blank hblank, perform_bind]
      rcases hprocessors : (sh.processors statement).perform w with ⟨fault | ps, w₁⟩
      · exact .unprepared hblank hprocessors
      · simp only [perform_tryCatch, perform_bind]
        rcases hattempt : (sh.attempt (prepared ps statement)).perform w₁ with ⟨fault | t, w₂⟩
        · by_cases hreported : fault.isReported = true
          · simp only [if_pos hreported, perform_bind]
            exact .failed hblank hprocessors hattempt hreported
          · simp only [if_neg hreported]
            exact .broken hblank hprocessors hattempt (by simpa [Fault.Unreported] using hreported)
        · exact .completed hblank hprocessors hattempt

/-- A statement keeps all of the shell but the last result. -/
theorem eq_of_runStatement (h : (sh.runStatement statement).perform w = (.ok sh', w')) :
    sh' = { sh with last := sh'.last } := by
  have hrunning := sh.running statement w
  rw [h] at hrunning
  cases hrunning <;> rfl

/-! ## Shortcuts -/

/-- A shortcut keeps all of the shell but the limit and whether queries are shown. -/
theorem eq_of_runShortcut (h : (sh.runShortcut line).perform w = (.ok sh', w')) :
    sh' = { sh with limit := sh'.limit, showQuery := sh'.showQuery } := by
  unfold runShortcut at h
  cases hline : Shortcut.ofLine line with
  | toggleQuery =>
      rw [hline] at h
      cases h
      rfl
  | setLimit digits =>
      simp only [hline, perform_bind, perform_liftM] at h
      cases hnumber : number digits with
      | error fault => simp [hnumber] at h
      | ok limit =>
          rw [hnumber] at h
          cases h
          rfl
  | showPage digits direction =>
      simp only [hline, perform_bind, perform_liftM] at h
      cases hnumber : number digits with
      | error fault => simp [hnumber] at h
      | ok index =>
          simp only [hnumber] at h
          rcases hpage : (sh.showPage index (direction.getD sh.pageDirection)).perform w with
            ⟨fault | _, w₁⟩
          · simp [hpage] at h
          · rw [hpage] at h
            cases h
            rfl
  | unknown =>
      rw [hline] at h
      cases h
      rfl

end QuerySplice.Shell
