import QuerySplice.Proofs.LeadingBlanks
import QuerySplice.Proofs.Turns

/-!
# Blank lines between statements

A blank line is gathered like the lines of a statement. Where no statement text is pending it adds
blanks in front of the next statement, which nothing tells apart. But once a blank line is gathered,
exit commands and shortcuts are lines of a statement too. So a blank line is harmless unless it is
the first that is gathered and one of these is typed right behind it.
-/

namespace QuerySplice.Shell

open Text Sql QuerySplice.Action

/-! ## Turns that are the same -/

/-- The turns do the same, up to blanks in front of a statement. -/
inductive Turn.Same : Turn → Turn → Prop
  | statement {lines others : List Text} {last other : Text}
      (h : SameQuery (List.intercalate ['\n'] (lines ++ [last]))
        (List.intercalate ['\n'] (others ++ [other]))) :
      Same (.statement lines last) (.statement others other)
  | shortcut (line : Text) : Same (.shortcut line) (.shortcut line)
  | dropped (lines others : List Text) : Same (.dropped lines) (.dropped others)

inductive Ending.Same : Ending → Ending → Prop
  | exit (line : Text) : Same (.exit line) (.exit line)
  | unfinished (lines others : List Text) : Same (.unfinished lines) (.unfinished others)

/-- The same statements up to blanks in front of them, the same shortcuts and the same exit command,
if there is one, in the same order. -/
structure Transcript.Same (a b : Transcript) : Prop where
  turns : List.Forall₂ Turn.Same a.turns b.turns
  ending : Ending.Same a.ending b.ending

theorem Turn.Same.refl : (turn : Turn) → turn.Same turn
  | .statement _ _ => .statement (SameQuery.refl _)
  | .shortcut line => .shortcut line
  | .dropped lines => .dropped lines lines

theorem Ending.Same.refl : (ending : Ending) → ending.Same ending
  | .exit line => .exit line
  | .unfinished lines => .unfinished lines lines

namespace Transcript

variable {a b : Transcript}

theorem Same.refl (a : Transcript) : a.Same a :=
  ⟨List.forall₂_same.mpr fun turn _ => Turn.Same.refl turn, Ending.Same.refl a.ending⟩

theorem Same.cons {turn other : Turn} (h : turn.Same other) (hab : a.Same b) :
    (a.cons turn).Same (b.cons other) :=
  ⟨.cons h hab.turns, hab.ending⟩

/-- Turns that both begin with can be left out. -/
theorem same_append_iff (turns : List Turn) :
    Same ⟨turns ++ a.turns, a.ending⟩ ⟨turns ++ b.turns, b.ending⟩ ↔ a.Same b := by
  constructor
  · rintro ⟨hturns, hending⟩
    have hdrop := List.forall₂_drop turns.length hturns
    rw [List.drop_left, List.drop_left] at hdrop
    exact ⟨hdrop, hending⟩
  · rintro ⟨hturns, hending⟩
    exact ⟨List.rel_append (Same.refl ⟨turns, a.ending⟩).turns hturns, hending⟩

end Transcript

/-! ## Running them -/

section Running

variable {sh sh' : Shell}

theorem shows_ask : (gathered : Nat) → Shows (ask gathered)
  | 0 => shows_pure
  | gathered + 1 => shows_bind (shows_ask gathered) (shows_emit _)

theorem agree_ask (gathered others : Nat) : Agree (fun _ _ => True) (ask gathered) (ask others) :=
  (shows_ask gathered).agree (shows_ask others)

theorem Turn.Same.agree_follow {turn other : Turn} (h : turn.Same other) (hsh : sh.Same sh') :
    Agree Shell.Same (turn.follow sh) (other.follow sh') := by
  cases h with
  | statement hst => exact agree_bind (agree_ask _ _) fun _ _ _ => agree_runStatement hsh hst
  | shortcut line => exact agree_bind (agree_ask _ _) fun _ _ _ => agree_runShortcut hsh line
  | dropped lines others =>
      refine agree_bind (agree_ask _ _) fun _ _ _ => ?_
      exact agree_bind (agree_emit _ _) fun _ _ _ => agree_pure hsh

theorem Ending.Same.agree_follow {ending other : Ending} (h : ending.Same other) :
    Agree (fun _ _ => True) ending.follow other.follow := by
  cases h with
  | exit line => exact agree_ask 1 1
  | unfinished lines others =>
      exact agree_bind (agree_ask _ _) fun _ _ _ => agree_emit _ _

theorem agree_turns {turns others : List Turn} (h : List.Forall₂ Turn.Same turns others)
    (hsh : sh.Same sh') :
    Agree Shell.Same (turns.foldlM Turn.follow sh) (others.foldlM Turn.follow sh') :=
  agree_foldlM h (fun _ _ _ _ hsh hturn => hturn.agree_follow hsh) hsh

theorem Transcript.Same.agree_follow {a b : Transcript} (h : a.Same b) (hsh : sh.Same sh') :
    Agree (fun _ _ => True) (a.follow sh) (b.follow sh') :=
  agree_bind (agree_turns h.turns hsh) fun _ _ _ => h.ending.agree_follow

end Running

/-! ## Gathered lines -/

variable {lines others : List Text} {line last blank : Text} {inputs : List Input}

theorem isBlank_newline : isBlank '\n' = true := by decide

/-- Blank lines in front of other lines are blanks in front of their text. -/
theorem trimStart_intercalate_blank {blanks : List Text} (h : ∀ line ∈ blanks, Blank line)
    (hne : lines ≠ []) :
    trimStart (List.intercalate ['\n'] (blanks ++ lines)) =
      trimStart (List.intercalate ['\n'] lines) := by
  induction blanks with
  | nil => rfl
  | cons blank blanks ih =>
      obtain ⟨hblank, hblanks⟩ := List.forall_mem_cons.mp h
      have hgap : Blank (blank ++ ['\n']) := hblank.append fun c hc => by
        rw [List.mem_singleton.mp hc]
        exact isBlank_newline
      have hrest : blanks ++ lines ≠ [] := List.append_ne_nil_of_right_ne_nil _ hne
      rw [List.cons_append, List.intercalate_cons_of_ne_nil hrest, trimStart_append_eq,
        if_pos hgap.trimStart_eq, ih hblanks]

/-- A line that completes a statement is not empty. -/
theorem ne_nil_of_endsStatement (h : endsStatement last = true) : last ≠ [] := by
  rintro rfl
  cases h

theorem intercalate_ne_nil (h : last ≠ []) (lines : List Text) :
    List.intercalate ['\n'] (lines ++ [last]) ≠ [] := by
  cases lines with
  | nil => simpa using h
  | cons line lines => simp [List.intercalate_cons_of_ne_nil]

/-- The lines are the same behind the blank lines that they begin with. -/
def SameLines (lines others : List Text) : Prop :=
  ∃ blanks blanks' common, (∀ line ∈ blanks, Blank line) ∧ (∀ line ∈ blanks', Blank line) ∧
    lines = blanks ++ common ∧ others = blanks' ++ common

theorem SameLines.append (h : SameLines lines others) (more : List Text) :
    SameLines (lines ++ more) (others ++ more) := by
  obtain ⟨blanks, blanks', common, hblanks, hblanks', rfl, rfl⟩ := h
  exact ⟨blanks, blanks', common ++ more, hblanks, hblanks', by simp, by simp⟩

theorem SameLines.sameQuery (h : SameLines lines others) (hlast : endsStatement last = true) :
    SameQuery (List.intercalate ['\n'] (lines ++ [last]))
      (List.intercalate ['\n'] (others ++ [last])) := by
  have hne := ne_nil_of_endsStatement hlast
  constructor
  · obtain ⟨blanks, blanks', common, hblanks, hblanks', rfl, rfl⟩ := h
    have hcommon : common ++ [last] ≠ [] := by simp
    rw [List.append_assoc, List.append_assoc, trimStart_intercalate_blank hblanks hcommon,
      trimStart_intercalate_blank hblanks' hcommon]
  · rw [List.isEmpty_eq_false_iff.mpr (intercalate_ne_nil hne lines),
      List.isEmpty_eq_false_iff.mpr (intercalate_ne_nil hne others)]

theorem SameLines.turn_same (h : SameLines lines others) (hlast : endsStatement last = true) :
    (Turn.statement lines last).Same (.statement others last) :=
  .statement (h.sameQuery hlast)

/-- While lines are gathered, an input means the same whatever blank lines they begin with. -/
theorem transcript_same (h : SameLines lines others) (hlines : lines ≠ []) (hothers : others ≠ [])
    (inputs : List Input) : (transcript lines inputs).Same (transcript others inputs) := by
  induction inputs generalizing lines others with
  | nil => exact ⟨.nil, .unfinished lines others⟩
  | cons input inputs ih =>
      cases input with
      | interrupt => exact .cons (.dropped lines others) (.refl _)
      | line line =>
          -- Both go on with gathered lines, so the line is neither an exit command nor a shortcut.
          have hopens : ∀ {buffer : List Text}, buffer ≠ [] → buffer = [] →
              isExit line = false ∧ isShortcut line = false := fun hne hnil => absurd hnil hne
          cases hends : endsStatement line with
          | true =>
              rw [transcript_of_statement (hopens hlines) hends,
                transcript_of_statement (hopens hothers) hends]
              exact .cons (h.turn_same hends) (.refl _)
          | false =>
              rw [transcript_of_gathered (hopens hlines) hends,
                transcript_of_gathered (hopens hothers) hends]
              exact ih (h.append [line]) (by simp) (by simp)

/-- What begins with gathered lines begins with no shortcut and ends with no exit command in their
place. -/
theorem transcript_cases (h : lines ≠ []) (inputs : List Input) :
    (∃ rest, transcript lines inputs = ⟨[], .unfinished rest⟩) ∨
      ∃ (turn : Turn) (a : Transcript), transcript lines inputs = a.cons turn ∧
        ∀ line, turn ≠ .shortcut line := by
  induction inputs generalizing lines with
  | nil => exact Or.inl ⟨lines, rfl⟩
  | cons input inputs ih =>
      cases input with
      | interrupt => exact Or.inr ⟨.dropped lines, transcript [] inputs, rfl, nofun⟩
      | line line =>
          have hopens : lines = [] → isExit line = false ∧ isShortcut line = false :=
            fun hnil => absurd hnil h
          cases hends : endsStatement line with
          | true =>
              rw [transcript_of_statement hopens hends]
              exact Or.inr ⟨.statement lines line, transcript [] inputs, rfl, nofun⟩
          | false =>
              rw [transcript_of_gathered hopens hends]
              exact ih (by simp)

/-! ## A blank line -/

theorem trim_of_blank (h : Blank blank) : trim blank = [] := by
  rw [trim, h.trimStart_eq]
  rfl

theorem readings_of_blank (h : Blank blank) :
    isExit blank = false ∧ isShortcut blank = false ∧ endsStatement blank = false := by
  rw [isExit, isShortcut, endsStatement, trim_of_blank h]
  decide

theorem transcript_blank (h : Blank blank) (lines : List Text) (inputs : List Input) :
    transcript lines (.line blank :: inputs) = transcript (lines ++ [blank]) inputs := by
  obtain ⟨hexit, hshortcut, hends⟩ := readings_of_blank h
  exact transcript_of_gathered (fun _ => ⟨hexit, hshortcut⟩) hends inputs

theorem sameLines_blank (h : Blank blank) : SameLines [] [blank] :=
  ⟨[], [blank], [], nofun, fun line hline => by rwa [List.mem_singleton.mp hline], rfl, rfl⟩

theorem not_same_exit (hexit : isExit line = true) (hne : lines ≠ []) (others : List Input) :
    ¬ (transcript [] (.line line :: inputs)).Same (transcript lines others) := by
  rw [transcript_of_exit hexit]
  rintro ⟨hturns, hending⟩
  rcases transcript_cases hne others with ⟨rest, hrest⟩ | ⟨turn, a, ha, -⟩
  · rw [hrest] at hending
    cases hending
  · rw [ha] at hturns
    cases hturns

theorem not_same_shortcut (hexit : isExit line = false) (hshortcut : isShortcut line = true)
    (hne : lines ≠ []) (others : List Input) :
    ¬ (transcript [] (.line line :: inputs)).Same (transcript lines others) := by
  rw [transcript_of_shortcut hexit hshortcut]
  rintro ⟨hturns, -⟩
  rcases transcript_cases hne others with ⟨rest, hrest⟩ | ⟨turn, a, ha, hturn⟩
  · rw [hrest] at hturns
    cases hturns
  · rw [ha] at hturns
    cases hturns with
    | cons hfirst _ =>
        cases hfirst
        exact hturn line rfl

/-- A line of a statement is one behind a blank line too. -/
theorem same_line (hblank : Blank blank) (hexit : isExit line = false)
    (hshortcut : isShortcut line = false) (inputs : List Input) :
    (transcript [] (.line line :: inputs)).Same (transcript [blank] (.line line :: inputs)) := by
  have hlines := sameLines_blank hblank
  have hopens : ∀ buffer : List Text, buffer = [] → isExit line = false ∧ isShortcut line = false :=
    fun _ _ => ⟨hexit, hshortcut⟩
  cases hends : endsStatement line with
  | true =>
      rw [transcript_of_statement (hopens []) hends, transcript_of_statement (hopens _) hends]
      exact .cons (hlines.turn_same hends) (.refl _)
  | false =>
      rw [transcript_of_gathered (hopens []) hends, transcript_of_gathered (hopens _) hends]
      exact transcript_same (hlines.append [line]) (by simp) (by simp) inputs

/-- Where nothing is gathered, a blank line is harmless unless an exit command or a shortcut comes
next. -/
theorem same_transcript_blank_iff (h : Blank blank) (inputs : List Input) :
    (transcript [] inputs).Same (transcript [blank] inputs) ↔
      ∀ line, inputs.head? = some (.line line) → isExit line = false ∧ isShortcut line = false := by
  have hne : [blank] ≠ [] := List.cons_ne_nil blank []
  match inputs with
  | [] => exact iff_of_true ⟨.nil, .unfinished [] [blank]⟩ nofun
  | .interrupt :: inputs => exact iff_of_true (.cons (.dropped [] [blank]) (.refl _)) nofun
  | .line line :: inputs =>
      have hnext : (∀ other, (Input.line line :: inputs).head? = some (.line other) →
          isExit other = false ∧ isShortcut other = false) ↔
          isExit line = false ∧ isShortcut line = false := by simp
      rw [hnext]
      cases hexit : isExit line with
      | true => exact iff_of_false (not_same_exit hexit hne _) (by simp)
      | false =>
          cases hshortcut : isShortcut line with
          | true => exact iff_of_false (not_same_shortcut hexit hshortcut hne _) (by simp)
          | false => exact iff_of_true (same_line h hexit hshortcut inputs) ⟨rfl, rfl⟩

/-- A blank line that is typed while only blank lines are gathered is harmless unless nothing is
gathered and an exit command or a shortcut comes next. -/
theorem same_insert_blank_iff (before after : List Input) (hblank : Blank blank)
    (hpending : ∀ lines, (transcript [] before).ending = .unfinished lines →
      ∀ line ∈ lines, Blank line) :
    (transcript [] (before ++ after)).Same (transcript [] (before ++ .line blank :: after)) ↔
      ((transcript [] before).ending = .unfinished [] →
        ∀ line, after.head? = some (.line line) →
          isExit line = false ∧ isShortcut line = false) := by
  rw [transcript_append, transcript_append]
  cases hending : (transcript [] before).ending with
  | exit line => exact iff_of_true (.refl _) nofun
  | unfinished lines =>
      simp only [Transcript.same_append_iff, transcript_blank hblank]
      cases lines with
      | nil =>
          rw [List.nil_append, same_transcript_blank_iff hblank]
          exact ⟨fun h _ => h, fun h => h rfl⟩
      | cons line lines =>
          have hlines := hpending _ hending
          refine iff_of_true (transcript_same ?_ (by simp) (by simp) after) nofun
          refine ⟨line :: lines, line :: lines ++ [blank], [], hlines, ?_, by simp, by simp⟩
          intro other hother
          rcases List.mem_append.mp hother with hmem | hmem
          · exact hlines other hmem
          · rwa [List.mem_singleton.mp hmem]

/-- A blank line that is typed while only blank lines are gathered leaves the exit command, the
shortcuts and, up to blanks in front of them, the statements as they are, unless nothing is gathered
and an exit command or a shortcut comes next. Where it leaves them, a shell comes through the same
turns with it and without it, and ends alike. -/
theorem harmless_blank_iff (before after : List Input) (hblank : Blank blank)
    (hpending : ∀ lines, (transcript [] before).ending = .unfinished lines →
      ∀ line ∈ lines, Blank line) :
    let without := transcript [] (before ++ after)
    let inserted := transcript [] (before ++ .line blank :: after)
    (without.Same inserted ↔
      ((transcript [] before).ending = .unfinished [] →
        ∀ line, after.head? = some (.line line) →
          isExit line = false ∧ isShortcut line = false)) ∧
    (without.Same inserted → ∀ (sh : Shell) (w : World), sh.buffer = [] →
      (∀ n, SameEnd Shell.Same (((without.turns.take n).foldlM Turn.follow sh).perform w)
        (((inserted.turns.take n).foldlM Turn.follow sh).perform w)) ∧
      SameEnd (fun _ _ => True) ((sh.run (before ++ after)).perform w)
        ((sh.run (before ++ .line blank :: after)).perform w)) := by
  refine ⟨same_insert_blank_iff before after hblank hpending, fun hsame sh w hbuffer => ⟨?_, ?_⟩⟩
  · intro n
    exact agree_turns (List.forall₂_take n hsame.turns) (.refl sh) w w.trace
  · rw [run_eq_transcript hbuffer, run_eq_transcript hbuffer]
    exact hsame.agree_follow (.refl sh) w w.trace

/-- A blank line between two statements. -/
theorem harmless_blank_iff_betweenStatements :
    Blank [' '] ∧
    (∀ lines, (transcript [] [.line "SELECT 1;".toList]).ending = .unfinished lines →
      ∀ line ∈ lines, Blank line) ∧
    (transcript [] ([.line "SELECT 1;".toList] ++ [.line "SELECT 2;".toList])).Same
      (transcript [] ([.line "SELECT 1;".toList] ++ .line [' '] :: [.line "SELECT 2;".toList])) := by
  have hblank : Blank [' '] := gap_singleton.2
  have hending : (transcript [] [.line "SELECT 1;".toList]).ending = .unfinished [] := by decide
  have hpending : ∀ lines, (transcript [] [.line "SELECT 1;".toList]).ending = .unfinished lines →
      ∀ line ∈ lines, Blank line := by
    intro lines hlines
    rw [hending] at hlines
    cases hlines
    exact nofun
  refine ⟨hblank, hpending, (harmless_blank_iff _ _ hblank hpending).1.mpr fun _ line hline => ?_⟩
  cases hline
  decide

/-- Behind a blank line an exit command is taken for a line of a statement. -/
theorem not_same_blank_exit :
    Blank [] ∧ (transcript [] []).ending = .unfinished [] ∧
      ¬ (transcript [] ([] ++ [.line "\\q".toList])).Same
        (transcript [] ([] ++ .line [] :: [.line "\\q".toList])) := by
  refine ⟨blank_nil, rfl, ?_⟩
  rintro ⟨-, hending⟩
  have hexit : (transcript [] ([] ++ [.line "\\q".toList])).ending = .exit "\\q".toList := by decide
  have hunfinished : (transcript [] ([] ++ .line [] :: [.line "\\q".toList])).ending =
      .unfinished [[], "\\q".toList] := by decide
  rw [hexit, hunfinished] at hending
  cases hending

end QuerySplice.Shell
