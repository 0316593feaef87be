import QuerySplice.CommandLine.Run
import QuerySplice.Proofs.Breaks

/-!
# What a shell survives

A shell takes its inputs one after another. Under a configuration of declared types, in an ordinary
world, its run ends at an exit command, at the end of the inputs, or at the first input that breaks
it.
-/

namespace QuerySplice

open QuerySplice.Action

namespace Shell

variable {sh : Shell} {w : World}

/-! ## Whole runs -/

/-- The world after the shell asked for its next input. -/
def asking (sh : Shell) (w : World) : World :=
  { w with trace := w.trace ++ [.prompt sh.prompt] }

theorem perform_run_cons (sh : Shell) (input : Input) (inputs : List Input) (w : World) :
    (sh.run (input :: inputs)).perform w =
      match (sh.take input).perform (sh.asking w) with
      | (.error fault, w') => (.error fault, w')
      | (.ok none, w') => (.ok (), w')
      | (.ok (some sh'), w') => (sh'.run inputs).perform w' := by
  rw [run, perform_bind, perform_emit]
  simp only [perform_bind]
  rw [← asking]
  rcases (sh.take input).perform (sh.asking w) with ⟨fault | next, w'⟩
  · rfl
  · cases next <;> rfl

/-- The shell takes the inputs one after another and goes on as `sh'` in the world `w'`. -/
inductive Reaches : Shell → World → List Input → Shell → World → Prop
  | nil {sh : Shell} {w : World} : Reaches sh w [] sh w
  | cons {sh sh' sh'' : Shell} {w w' w'' : World} {input : Input} {inputs : List Input}
      (htake : (sh.take input).perform (sh.asking w) = (.ok (some sh'), w'))
      (hrest : Reaches sh' w' inputs sh'' w'') : Reaches sh w (input :: inputs) sh'' w''

/-- The shell reaches one of the inputs and breaks on it. -/
def BreaksOn (sh : Shell) (w : World) (inputs : List Input) : Prop :=
  ∃ before input after sh' w', inputs = before ++ input :: after ∧
    sh.Reaches w before sh' w' ∧ sh'.Breaks (sh'.asking w') input

theorem breaksOn_cons_iff {input : Input} {inputs : List Input} :
    sh.BreaksOn w (input :: inputs) ↔
      sh.Breaks (sh.asking w) input ∨
        ∃ sh' w', (sh.take input).perform (sh.asking w) = (.ok (some sh'), w') ∧
          sh'.BreaksOn w' inputs := by
  constructor
  · rintro ⟨before, last, after, sh', w', hinputs, hreaches, hbreaks⟩
    cases hreaches with
    | nil =>
        cases hinputs
        exact Or.inl hbreaks
    | cons htake hrest =>
        cases hinputs
        exact Or.inr ⟨_, _, htake, _, _, _, _, _, rfl, hrest, hbreaks⟩
  · rintro (hbreaks | ⟨sh', w', htake, before, last, after, sh'', w'', rfl, hrest, hbreaks⟩)
    · exact ⟨[], input, inputs, sh, w, rfl, .nil, hbreaks⟩
    · exact ⟨input :: before, last, after, sh'', w'', rfl, .cons htake hrest, hbreaks⟩

/-- The run ends in a fault exactly if the shell breaks on one of the inputs. -/
theorem IsTyped.faults_run (h : sh.IsTyped) (hw : w.Ordinary) (inputs : List Input) :
    Faults (fun _ => True) (sh.run inputs) w ↔ sh.BreaksOn w inputs := by
  induction inputs generalizing sh w with
  | nil =>
      refine iff_of_false ?_ ?_
      · rintro ⟨fault, ⟨⟩, -⟩
      · rintro ⟨before, input, after, sh', w', hinputs, -⟩
        simp at hinputs
  | cons input inputs ih =>
      have hasking : (sh.asking w).Ordinary := hw.of_later rfl List.suffix_rfl
      obtain ⟨hordinary, htyped, -⟩ := h.meets_take input (sh.asking w) hasking
      rw [breaksOn_cons_iff, ← h.faults_take hasking, Faults, Faults, perform_run_cons]
      generalize (sh.take input).perform (sh.asking w) = outcome at hordinary htyped ⊢
      rcases outcome with ⟨fault | next, w'⟩
      · exact iff_of_true ⟨fault, rfl, trivial⟩ (Or.inl ⟨fault, rfl, trivial⟩)
      · cases next with
        | none =>
            refine iff_of_false ?_ ?_
            · rintro ⟨fault, ⟨⟩, -⟩
            · rintro (⟨fault, ⟨⟩, -⟩ | ⟨sh', w'', ⟨⟩, -⟩)
        | some sh' =>
            have hrest := ih (htyped _ rfl sh' rfl) hordinary
            constructor
            · intro hfaults
              exact Or.inr ⟨sh', w', rfl, hrest.mp hfaults⟩
            · rintro (⟨fault, ⟨⟩, -⟩ | ⟨sh'', w'', ⟨⟩, hbreaks⟩)
              exact hrest.mpr hbreaks

theorem exit_of_reading {buffer : List Text} {line : Text}
    (h : Reading.ofLine buffer line = .exit) : buffer = [] ∧ isExit line = true := by
  unfold Reading.ofLine at h
  by_cases hexit : buffer.isEmpty = true ∧ isExit line = true
  · exact ⟨List.isEmpty_iff.mp hexit.1, hexit.2⟩
  · rw [if_neg hexit] at h
    split at h
    · cases h
    · split at h
      · cases h
      · cases h

theorem perform_bind_some_ne (action : Action Shell) (w w' : World) :
    (do return some (← action) : Action (Option Shell)).perform w ≠ (.ok none, w') := by
  rw [perform_bind]
  rcases action.perform w with ⟨fault | sh, w''⟩
  · nofun
  · nofun

/-- Only an exit command ends a shell without a fault. -/
theorem exit_of_take {input : Input} {w' : World}
    (h : (sh.take input).perform w = (.ok none, w')) :
    ∃ line, input = .line line ∧ sh.buffer = [] ∧ isExit line = true := by
  cases input with
  | interrupt => cases h
  | line line =>
      refine ⟨line, rfl, ?_⟩
      simp only [take, takeLine] at h
      cases hreading : Reading.ofLine sh.buffer line with
      | exit => exact exit_of_reading hreading
      | gathered buffer =>
          rw [hreading] at h
          cases h
      | shortcut =>
          rw [hreading] at h
          exact absurd h (perform_bind_some_ne _ _ _)
      | statement lines =>
          rw [hreading] at h
          exact absurd h (perform_bind_some_ne _ _ _)

/-- A run that ends in no fault ends at an exit command or at the end of the inputs. -/
theorem ends_of_run {inputs : List Input} {w' : World}
    (h : (sh.run inputs).perform w = (.ok (), w')) :
    (∃ sh' w', sh.Reaches w inputs sh' w') ∨
      ∃ before line after sh' w', inputs = before ++ .line line :: after ∧
        sh.Reaches w before sh' w' ∧ sh'.buffer = [] ∧ isExit line = true := by
  induction inputs generalizing sh w with
  | nil => exact Or.inl ⟨sh, w, .nil⟩
  | cons input inputs ih =>
      rw [perform_run_cons] at h
      rcases htake : (sh.take input).perform (sh.asking w) with ⟨fault | next, w₁⟩
      · rw [htake] at h
        cases h
      · cases next with
        | none =>
            obtain ⟨line, rfl, hbuffer, hexit⟩ := exit_of_take htake
            exact Or.inr ⟨[], line, inputs, sh, w, rfl, .nil, hbuffer, hexit⟩
        | some sh₁ =>
            rw [htake] at h
            rcases ih h with ⟨sh', w', hreaches⟩ |
              ⟨before, line, after, sh', w', rfl, hreaches, hbuffer, hexit⟩
            · exact Or.inl ⟨sh', w', .cons htake hreaches⟩
            · exact Or.inr ⟨input :: before, line, after, sh', w', rfl, .cons htake hreaches,
                hbuffer, hexit⟩

end Shell

/-! ## Shells of a configuration -/

/-- Every entry that a shell reads is of the type it is declared with. -/
structure Config.IsTyped (c : Config) : Prop where
  defaultLimit : ∃ n, c.logs.defaultLimit = .int n
  timeColumn : ∃ column, c.logs.timeColumn = .text column
  sortOrder : ∃ order, c.logs.sortOrder = .text order
  autoOrderBy : ∃ b, c.logs.autoOrderBy = .bool b
  limit : ∃ n, c.context.limit = .int n
  filterColumns : ∃ columns : List Text, c.context.filterColumns = .list (columns.map .text)

theorem Config.IsTyped.exists_shell {config : Config} (h : config.IsTyped) (source : Source) :
    ∃ sh, CommandLine.shellOf config source = .ok sh ∧ sh.IsTyped := by
  obtain ⟨n, hdefault⟩ := h.defaultLimit
  obtain ⟨column, hcolumn⟩ := h.timeColumn
  obtain ⟨order, horder⟩ := h.sortOrder
  obtain ⟨auto, hauto⟩ := h.autoOrderBy
  obtain ⟨m, hlimit⟩ := h.limit
  obtain ⟨columns, hcolumns⟩ := h.filterColumns
  obtain ⟨direction, hdirection⟩ : ∃ direction, (Value.text order).asDirection = .ok direction := by
    unfold Value.asDirection
    split
    · exact ⟨_, rfl⟩
    · exact ⟨_, rfl⟩
  have hitems : (Value.list (columns.map .text)).asColumns = .ok (columns.map .text) := by
    cases columns <;> rfl
  have hall : ∀ v ∈ columns.map Value.text, ∃ column, v = .text column := by
    intro v hv
    obtain ⟨column, -, rfl⟩ := List.mem_map.mp hv
    exact ⟨column, rfl⟩
  unfold CommandLine.shellOf
  simp only [hdefault, hcolumn, horder, hauto, hlimit, hcolumns, hdirection, hitems]
  cases auto with
  | false => exact ⟨_, rfl, ⟨n, rfl⟩, nofun, ⟨column, rfl⟩, ⟨m, rfl⟩, hall⟩
  | true =>
      refine ⟨_, rfl, ⟨n, rfl⟩, ?_, ⟨column, rfl⟩, ⟨m, rfl⟩, hall⟩
      rintro o ⟨⟩
      exact ⟨column, rfl⟩

theorem Config.isTyped_default : Config.default.IsTyped where
  defaultLimit := ⟨1000, rfl⟩
  timeColumn := ⟨"timestamp".toList, rfl⟩
  sortOrder := ⟨"descending".toList, rfl⟩
  autoOrderBy := ⟨true, rfl⟩
  limit := ⟨100, rfl⟩
  filterColumns := ⟨[], rfl⟩

theorem World.ordinary_initial : (World.initial ⟨[], [], 0⟩ ⟨false, 0, 0⟩).Ordinary where
  delivers := nofun
  finite := rfl

namespace Shell

/-- Under a configuration of declared types, in an ordinary world, a run ends in a fault exactly if
the shell breaks on one of the inputs, and otherwise at an exit command or at the end of the
inputs. -/
theorem run_error_iff {config : Config} (hconfig : config.IsTyped) (source : Source)
    (hw : w.Ordinary) (inputs : List Input) :
    ∃ sh, CommandLine.shellOf config source = .ok sh ∧
      ((∃ fault, ((sh.run inputs).perform w).1 = .error fault) ↔ sh.BreaksOn w inputs) ∧
      (((sh.run inputs).perform w).1 = .ok () →
        (∃ sh' w', sh.Reaches w inputs sh' w') ∨
          ∃ before line after sh' w', inputs = before ++ .line line :: after ∧
            sh.Reaches w before sh' w' ∧ sh'.buffer = [] ∧ isExit line = true) := by
  obtain ⟨sh, hsh, htyped⟩ := hconfig.exists_shell source
  refine ⟨sh, hsh, ?_, ?_⟩
  · simpa [Faults] using htyped.faults_run hw inputs
  · intro h
    exact ends_of_run (Prod.ext h rfl)

/-- The shell breaks on a superscript as the number of a limit. -/
theorem run_error_iff_superscript :
    Config.default.IsTyped ∧ (World.initial ⟨[], [], 0⟩ ⟨false, 0, 0⟩).Ordinary ∧
      ∃ sh, CommandLine.shellOf Config.default ⟨"db".toList, .null, .null, []⟩ = .ok sh ∧
        ∃ fault, ((sh.run [.line ".limit ²".toList]).perform
          (.initial ⟨[], [], 0⟩ ⟨false, 0, 0⟩)).1 = .error fault := by
  refine ⟨Config.isTyped_default, World.ordinary_initial, ?_⟩
  obtain ⟨sh, hsh, hfaults, -⟩ := run_error_iff Config.isTyped_default
    ⟨"db".toList, .null, .null, []⟩ World.ordinary_initial [.line ".limit ²".toList]
  refine ⟨sh, hsh, hfaults.mpr ?_⟩
  cases hsh
  refine ⟨[], _, [], _, _, rfl, .nil, ?_⟩
  have hreading : Reading.ofLine [] ".limit ²".toList = .shortcut := by decide
  have hshortcut : Shortcut.ofLine ".limit ²".toList = .setLimit "²".toList := by rfl
  simp only [Breaks, hreading, ShortcutBreaks, hshortcut]
  intro hnumber
  exact absurd hnumber.1 (by decide)

/-- A superscript is a digit to a shortcut and no number, which ends the shell. -/
theorem not_survives_superscript :
    ¬ (∀ (config : Config) (source : Source) (sh : Shell) (w : World) (inputs : List Input),
      config.IsTyped → w.Ordinary → CommandLine.shellOf config source = .ok sh →
        ∀ fault, ((sh.run inputs).perform w).1 ≠ .error fault) := by
  intro h
  exact h .default ⟨"db".toList, .null, .null, []⟩ _ (.initial ⟨[], [], 0⟩ ⟨false, 0, 0⟩)
    [.line ".limit ²".toList] Config.isTyped_default World.ordinary_initial rfl
    (.unreadableNumber "²".toList) rfl

end Shell

end QuerySplice
