import QuerySplice.Proofs.Outcomes

/-!
# The turns of a session

The inputs of a shell fall into turns: a statement with all lines that were gathered for it, a
shortcut, or gathered lines that an interrupt drops. Behind the last turn stands an exit command, or
the lines that are still gathered when the inputs end. The inputs fall into turns in one way only,
and running the shell is doing what its turns say, one after another.
-/

namespace QuerySplice.Shell

open Text QuerySplice.Action

/-! ## Readings -/

/-- What a line means behind the gathered lines `buffer`. -/
inductive Reads (buffer : List Text) (line : Text) : Reading → Prop
  | exit (hbuffer : buffer = []) (hexit : isExit line = true) : Reads buffer line .exit
  | shortcut (hbuffer : buffer = []) (hexit : isExit line = false)
      (hshortcut : isShortcut line = true) : Reads buffer line .shortcut
  | gathered (hopens : buffer = [] → isExit line = false ∧ isShortcut line = false)
      (hends : endsStatement line = false) : Reads buffer line (.gathered (buffer ++ [line]))
  | statement (hopens : buffer = [] → isExit line = false ∧ isShortcut line = false)
      (hends : endsStatement line = true) : Reads buffer line (.statement (buffer ++ [line]))

variable {buffer lines : List Text} {line : Text}

theorem reads_ofLine (buffer : List Text) (line : Text) :
    Reads buffer line (Reading.ofLine buffer line) := by
  unfold Reading.ofLine
  by_cases hexit : buffer.isEmpty = true ∧ isExit line = true
  · rw [if_pos hexit]
    exact .exit (List.isEmpty_iff.mp hexit.1) hexit.2
  · rw [if_neg hexit]
    by_cases hshortcut : buffer.isEmpty = true ∧ isShortcut line = true
    · rw [if_pos hshortcut]
      refine .shortcut (List.isEmpty_iff.mp hshortcut.1) ?_ hshortcut.2
      exact Bool.eq_false_iff.mpr fun h => hexit ⟨hshortcut.1, h⟩
    · rw [if_neg hshortcut]
      have hopens : buffer = [] → isExit line = false ∧ isShortcut line = false := by
        rintro rfl
        exact ⟨Bool.eq_false_iff.mpr fun h => hexit ⟨rfl, h⟩,
          Bool.eq_false_iff.mpr fun h => hshortcut ⟨rfl, h⟩⟩
      cases hends : endsStatement line with
      | false => exact .gathered hopens hends
      | true => exact .statement hopens hends

/-- A line has one meaning. -/
theorem Reads.eq_ofLine {reading : Reading} (h : Reads buffer line reading) :
    Reading.ofLine buffer line = reading := by
  have hofLine := reads_ofLine buffer line
  generalize Reading.ofLine buffer line = other at hofLine
  cases h <;> cases hofLine <;> simp_all

/-! ## Turns -/

/-- A part of the inputs that a shell has done with. -/
inductive Turn
  /-- Lines that were gathered, and the line that completes them to a statement. -/
  | statement (lines : List Text) (last : Text)
  | shortcut (line : Text)
  /-- Lines that were gathered, and an interrupt that drops them. -/
  | dropped (lines : List Text)
  deriving DecidableEq, Repr

/-- What stands behind the last turn. -/
inductive Ending
  | exit (line : Text)
  /-- The inputs end while these lines are gathered. -/
  | unfinished (lines : List Text)
  deriving DecidableEq, Repr

structure Transcript where
  turns : List Turn
  ending : Ending
  deriving DecidableEq, Repr

/-- The first of the lines is neither an exit command nor a shortcut. -/
def Opens (lines : List Text) : Prop :=
  ∀ line ∈ lines.head?, isExit line = false ∧ isShortcut line = false

/-- Lines that can be gathered one after another: they open, and none completes a statement. -/
def Gathers (lines : List Text) : Prop :=
  Opens lines ∧ ∀ line ∈ lines, endsStatement line = false

theorem opens_append_singleton :
    Opens (lines ++ [line]) ↔
      Opens lines ∧ (lines = [] → isExit line = false ∧ isShortcut line = false) := by
  cases lines <;> simp [Opens]

theorem gathers_nil : Gathers [] := ⟨nofun, nofun⟩

theorem gathers_append_singleton :
    Gathers (lines ++ [line]) ↔ Opens (lines ++ [line]) ∧
      (∀ line ∈ lines, endsStatement line = false) ∧ endsStatement line = false := by
  simp [Gathers, or_imp, forall_and]

namespace Turn

/-- The inputs that the turn takes up. -/
def inputs : Turn → List Input
  | statement lines last => (lines ++ [last]).map .line
  | shortcut line => [.line line]
  | dropped lines => lines.map .line ++ [.interrupt]

/-- What makes a turn: a statement ends at its first line that completes one, a shortcut stands by
itself, and an interrupt drops all lines since the last turn. -/
def IsProper : Turn → Prop
  | statement lines last =>
    Opens (lines ++ [last]) ∧ (∀ line ∈ lines, endsStatement line = false) ∧
      endsStatement last = true
  | shortcut line => isExit line = false ∧ isShortcut line = true
  | dropped lines => Gathers lines

end Turn

namespace Ending

def inputs : Ending → List Input
  | exit line => [.line line]
  | unfinished lines => lines.map .line

def IsProper : Ending → Prop
  | exit line => isExit line = true
  | unfinished lines => Gathers lines

/-- Only behind an exit command inputs are left unread. -/
def Leaves : Ending → List Input → Prop
  | exit _, _ => True
  | unfinished _, unread => unread = []

end Ending

namespace Transcript

/-- The inputs are those of the turns and of the ending, and what is left unread. -/
structure IsOf (a : Transcript) (inputs : List Input) : Prop where
  turns : ∀ turn ∈ a.turns, turn.IsProper
  ending : a.ending.IsProper
  inputs : ∃ unread, inputs = a.turns.flatMap Turn.inputs ++ (a.ending.inputs ++ unread) ∧
    a.ending.Leaves unread

def cons (turn : Turn) (a : Transcript) : Transcript := { a with turns := turn :: a.turns }

end Transcript

/-- The transcript of the inputs behind the gathered lines `buffer`. -/
def transcript (buffer : List Text) : List Input → Transcript
  | [] => ⟨[], .unfinished buffer⟩
  | .interrupt :: inputs => (transcript [] inputs).cons (.dropped buffer)
  | .line line :: inputs =>
    match Reading.ofLine buffer line with
    | .exit => ⟨[], .exit line⟩
    | .shortcut => (transcript [] inputs).cons (.shortcut line)
    | .gathered lines => transcript lines inputs
    | .statement _ => (transcript [] inputs).cons (.statement buffer line)

/-! ## One way into turns -/

section OneWay

variable {inputs : List Input}

theorem transcript_of_exit (h : isExit line = true) (inputs : List Input) :
    transcript [] (.line line :: inputs) = ⟨[], .exit line⟩ := by
  rw [transcript, (Reads.exit rfl h).eq_ofLine]

theorem transcript_of_shortcut (hexit : isExit line = false) (h : isShortcut line = true)
    (inputs : List Input) :
    transcript [] (.line line :: inputs) = (transcript [] inputs).cons (.shortcut line) := by
  rw [transcript, (Reads.shortcut rfl hexit h).eq_ofLine]

theorem transcript_of_gathered
    (hopens : buffer = [] → isExit line = false ∧ isShortcut line = false)
    (hends : endsStatement line = false) (inputs : List Input) :
    transcript buffer (.line line :: inputs) = transcript (buffer ++ [line]) inputs := by
  rw [transcript, (Reads.gathered hopens hends).eq_ofLine]

theorem transcript_of_statement
    (hopens : buffer = [] → isExit line = false ∧ isShortcut line = false)
    (hends : endsStatement line = true) (inputs : List Input) :
    transcript buffer (.line line :: inputs) =
      (transcript [] inputs).cons (.statement buffer line) := by
  rw [transcript, (Reads.statement hopens hends).eq_ofLine]

/-- Lines that can be gathered are. -/
theorem transcript_gathers (buffer : List Text) (h : Gathers (buffer ++ lines))
    (inputs : List Input) :
    transcript buffer (lines.map .line ++ inputs) = transcript (buffer ++ lines) inputs := by
  induction lines generalizing buffer with
  | nil => simp
  | cons line lines ih =>
      have hopens : buffer = [] → isExit line = false ∧ isShortcut line = false := by
        rintro rfl
        exact h.1 line rfl
      have hends := h.2 line (by simp)
      rw [List.append_cons] at h ⊢
      rw [List.map_cons, List.cons_append, transcript_of_gathered hopens hends, ih _ h]

theorem Turn.IsProper.transcript_eq {turn : Turn} (h : turn.IsProper) (inputs : List Input) :
    transcript [] (turn.inputs ++ inputs) = (transcript [] inputs).cons turn := by
  cases turn with
  | statement lines last =>
      obtain ⟨hopens, hlines, hlast⟩ := h
      have hfirst := opens_append_singleton.mp hopens
      rw [Turn.inputs, List.map_append, List.append_assoc,
        transcript_gathers [] ⟨hfirst.1, hlines⟩]
      exact transcript_of_statement hfirst.2 hlast inputs
  | shortcut line => exact transcript_of_shortcut h.1 h.2 inputs
  | dropped lines =>
      rw [Turn.inputs, List.append_assoc, transcript_gathers [] h]
      rfl

theorem Ending.IsProper.transcript_eq {ending : Ending} (h : ending.IsProper)
    {unread : List Input} (hunread : ending.Leaves unread) :
    transcript [] (ending.inputs ++ unread) = ⟨[], ending⟩ := by
  cases ending with
  | exit line => exact transcript_of_exit h unread
  | unfinished lines =>
      rw [hunread, Ending.inputs, transcript_gathers [] h]
      rfl

/-- Whole turns are the first turns of what begins with them. -/
theorem transcript_flatMap {turns : List Turn} (h : ∀ turn ∈ turns, turn.IsProper)
    (inputs : List Input) :
    transcript [] (turns.flatMap Turn.inputs ++ inputs) =
      ⟨turns ++ (transcript [] inputs).turns, (transcript [] inputs).ending⟩ := by
  induction turns with
  | nil => rfl
  | cons turn turns ih =>
      obtain ⟨hturn, hturns⟩ := List.forall_mem_cons.mp h
      rw [List.flatMap_cons, List.append_assoc, hturn.transcript_eq, ih hturns]
      rfl

/-- The inputs have no other transcript. -/
theorem Transcript.IsOf.eq_transcript {a : Transcript} (h : a.IsOf inputs) :
    a = transcript [] inputs := by
  obtain ⟨unread, rfl, hunread⟩ := h.inputs
  rw [transcript_flatMap h.turns, h.ending.transcript_eq hunread, List.append_nil]

theorem Transcript.IsOf.cons {a : Transcript} (h : a.IsOf inputs) (turn : Turn)
    (hturn : turn.IsProper) : (a.cons turn).IsOf (turn.inputs ++ inputs) where
  turns := List.forall_mem_cons.mpr ⟨hturn, h.turns⟩
  ending := h.ending
  inputs := by
    obtain ⟨unread, rfl, hunread⟩ := h.inputs
    exact ⟨unread, by simp [Transcript.cons], hunread⟩

theorem isOf_transcript (h : Gathers buffer) (inputs : List Input) :
    (transcript buffer inputs).IsOf (buffer.map .line ++ inputs) := by
  induction inputs generalizing buffer with
  | nil => exact ⟨nofun, h, [], by simp [transcript, Ending.inputs], rfl⟩
  | cons input inputs ih =>
      cases input with
      | interrupt =>
          have hcons := (ih gathers_nil).cons (.dropped buffer) h
          rwa [Turn.inputs, List.append_assoc] at hcons
      | line line =>
          have hline : (buffer ++ [line]).map Input.line ++ inputs =
              buffer.map .line ++ .line line :: inputs := by
            simp
          have hreads := reads_ofLine buffer line
          generalize Reading.ofLine buffer line = reading at hreads
          cases hreads with
          | exit hbuffer hexit =>
              subst hbuffer
              rw [transcript_of_exit hexit]
              exact ⟨nofun, hexit, inputs, rfl, trivial⟩
          | shortcut hbuffer hexit hshortcut =>
              subst hbuffer
              rw [transcript_of_shortcut hexit hshortcut]
              exact (ih gathers_nil).cons (.shortcut line) ⟨hexit, hshortcut⟩
          | gathered hopens hends =>
              have hgathers : Gathers (buffer ++ [line]) := gathers_append_singleton.mpr
                ⟨opens_append_singleton.mpr ⟨h.1, hopens⟩, h.2, hends⟩
              rw [transcript_of_gathered hopens hends, ← hline]
              exact ih hgathers
          | statement hopens hends =>
              rw [transcript_of_statement hopens hends, ← hline]
              exact (ih gathers_nil).cons (.statement buffer line)
                ⟨opens_append_singleton.mpr ⟨h.1, hopens⟩, h.2, hends⟩

/-- The transcript goes on with the lines that are gathered when the first inputs end, unless an
exit command stands among these. -/
theorem transcript_append (inputs rest : List Input) :
    transcript [] (inputs ++ rest) =
      match (transcript [] inputs).ending with
      | .exit _ => transcript [] inputs
      | .unfinished lines =>
        ⟨(transcript [] inputs).turns ++ (transcript lines rest).turns,
          (transcript lines rest).ending⟩ := by
  have h := isOf_transcript gathers_nil inputs
  obtain ⟨unread, hinputs, hunread⟩ := h.inputs
  have hending := h.ending
  have happend := transcript_flatMap h.turns
    ((transcript [] inputs).ending.inputs ++ unread ++ rest)
  rw [List.map_nil, List.nil_append] at hinputs
  rw [← List.append_assoc, ← hinputs] at happend
  rw [happend]
  cases hcase : (transcript [] inputs).ending with
  | exit line =>
      rw [hcase] at hending
      simp only [Ending.inputs, List.cons_append,
        transcript_of_exit (show isExit line = true from hending), List.append_nil, ← hcase]
  | unfinished lines =>
      rw [hcase] at hending hunread
      rw [show unread = [] from hunread, List.append_nil, Ending.inputs,
        transcript_gathers [] hending, List.nil_append]

/-- Turns stay what they are, whatever comes behind the inputs. -/
theorem turns_append (inputs rest : List Input) :
    (transcript [] inputs).turns <+: (transcript [] (inputs ++ rest)).turns := by
  rw [transcript_append]
  split
  · exact List.prefix_rfl
  · exact List.prefix_append _ _

end OneWay

/-! ## Doing what the turns say -/

/-- The prompt behind this many gathered lines. -/
def promptAfter (gathered : Nat) : Text :=
  if gathered = 0 then "sqlrw> ".toList else "...> ".toList

theorem prompt_eq (sh : Shell) : sh.prompt = promptAfter sh.buffer.length := by
  unfold prompt promptAfter
  cases sh.buffer <;> rfl

/-- Asks for this many lines in a row. -/
def ask : Nat → Action Unit
  | 0 => return ()
  | gathered + 1 => do
    ask gathered
    Action.emit (.prompt (promptAfter gathered))

/-- Does what a turn says. -/
def Turn.follow (sh : Shell) : Turn → Action Shell
  | .statement lines last => do
    ask (lines.length + 1)
    sh.runStatement (List.intercalate ['\n'] (lines ++ [last]))
  | .shortcut line => do
    ask 1
    sh.runShortcut line
  | .dropped lines => do
    ask (lines.length + 1)
    Action.print []
    return sh

def Ending.follow : Ending → Action Unit
  | .exit _ => ask 1
  | .unfinished lines => do
    ask (lines.length + 1)
    Action.print []

/-- Does what the turns say from the first to the last, and then ends. -/
def Transcript.follow (a : Transcript) (sh : Shell) : Action Unit := do
  let _ ← a.turns.foldlM Turn.follow sh
  a.ending.follow

theorem Transcript.follow_cons (turn : Turn) (a : Transcript) (sh : Shell) :
    (a.cons turn).follow sh = (do
      let sh' ← turn.follow sh
      a.follow sh') := by
  simp [Transcript.follow, Transcript.cons, List.foldlM_cons]

variable {sh sh' : Shell} {w w' : World}

theorem buffer_eq_of_runStatement {statement : Text}
    (h : (sh.runStatement statement).perform w = (.ok sh', w')) : sh'.buffer = sh.buffer := by
  rw [eq_of_runStatement h]

theorem buffer_eq_of_runShortcut (h : (sh.runShortcut line).perform w = (.ok sh', w')) :
    sh'.buffer = sh.buffer := by
  rw [eq_of_runShortcut h]

theorem run_cons (sh : Shell) (input : Input) (inputs : List Input) :
    sh.run (input :: inputs) = (do
      Action.emit (.prompt (promptAfter sh.buffer.length))
      match ← sh.take input with
      | none => return ()
      | some sh' => sh'.run inputs) := by
  rw [← prompt_eq]
  rfl

theorem with_buffer_eq (h : sh.buffer = []) : { sh with buffer := [] } = sh := by
  rw [← h]

/-- Behind the prompts for the gathered lines, a shell does what its transcript says. -/
theorem ask_run (sh : Shell) (inputs : List Input) :
    (do ask sh.buffer.length; sh.run inputs) =
      (transcript sh.buffer inputs).follow { sh with buffer := [] } := by
  induction inputs generalizing sh with
  | nil =>
      simp only [run, transcript, Transcript.follow, Ending.follow, List.foldlM_nil, pure_bind, ask,
        bind_assoc, prompt_eq]
  | cons input inputs ih =>
      have hstart : ∀ sh' : Shell, sh'.buffer = [] →
          sh'.run inputs = (transcript [] inputs).follow sh' := by
        intro sh' hbuffer
        have h := ih sh'
        rw [with_buffer_eq hbuffer, hbuffer] at h
        exact h
      rw [run_cons]
      cases input with
      | interrupt =>
          simp only [transcript, Transcript.follow_cons, Turn.follow, take, ask, bind_assoc,
            pure_bind, hstart { sh with buffer := [] } rfl]
      | line line =>
          have hreads := reads_ofLine sh.buffer line
          simp only [take, takeLine, transcript]
          generalize Reading.ofLine sh.buffer line = reading at hreads ⊢
          cases hreads with
          | exit hbuffer hexit =>
              simp only [Transcript.follow, List.foldlM_nil, pure_bind, Ending.follow, hbuffer,
                List.length_nil, ask]
              exact bind_pure _
          | shortcut hbuffer hexit hshortcut =>
              simp only [Transcript.follow_cons, Turn.follow, bind_assoc, pure_bind, ask, hbuffer,
                with_buffer_eq hbuffer, List.length_nil]
              refine congrArg _ (funext fun _ => bind_congr_of_perform fun w sh' w' hperform => ?_)
              exact hstart sh' ((buffer_eq_of_runShortcut hperform).trans hbuffer)
          | gathered hopens hends =>
              have h := ih { sh with buffer := sh.buffer ++ [line] }
              simp only [List.length_append, List.length_singleton, ask, bind_assoc] at h
              simp only [pure_bind]
              exact h
          | statement hopens hends =>
              simp only [Transcript.follow_cons, Turn.follow, bind_assoc, pure_bind, ask]
              refine congrArg _ (funext fun _ => congrArg _ (funext fun _ => ?_))
              refine bind_congr_of_perform fun w sh' w' hperform => ?_
              exact hstart sh' (buffer_eq_of_runStatement hperform)

/-- A shell that starts with nothing gathered does what the transcript of its inputs says. -/
theorem run_eq_transcript (h : sh.buffer = []) (inputs : List Input) :
    sh.run inputs = (transcript [] inputs).follow sh := by
  have hask := sh.ask_run inputs
  rwa [h, with_buffer_eq h] at hask

/-- The inputs of a shell fall into turns and an ending in one way only, and running the shell is
doing what these say, one after another, up to the first fault. What comes behind the inputs leaves
their turns as they are. -/
theorem run_eq_follow (inputs : List Input) :
    ∃ a : Transcript, a.IsOf inputs ∧ (∀ b : Transcript, b.IsOf inputs → b = a) ∧
      (∀ sh : Shell, sh.buffer = [] → sh.run inputs = a.follow sh) ∧
      ∀ (rest : List Input) (b : Transcript), b.IsOf (inputs ++ rest) → a.turns <+: b.turns := by
  refine ⟨transcript [] inputs, isOf_transcript gathers_nil inputs, fun b hb => hb.eq_transcript,
    ?_, ?_⟩
  · intro sh hbuffer
    exact run_eq_transcript hbuffer inputs
  · intro rest b hb
    rw [hb.eq_transcript]
    exact turns_append inputs rest

/-- Lines that are dropped, a statement of two lines, a shortcut, and an exit command. -/
def mixedInputs : List Input :=
  [.line "SELECT 1".toList, .interrupt, .line "SELECT".toList, .line "exit;".toList,
    .line ".sql".toList, .line "exit".toList, .line "SELECT 2;".toList]

theorem run_eq_follow_mixedInputs :
    ∃ a : Transcript, a.IsOf mixedInputs ∧
      a.turns = [.dropped ["SELECT 1".toList], .statement ["SELECT".toList] "exit;".toList,
        .shortcut ".sql".toList] ∧
      a.ending = .exit "exit".toList := by
  obtain ⟨a, ha, -⟩ := run_eq_follow mixedInputs
  have htranscript := ha.eq_transcript
  refine ⟨a, ha, ?_, ?_⟩
  · rw [htranscript]
    decide
  · rw [htranscript]
    decide

end QuerySplice.Shell
