import Mathlib.Data.List.Infix
import QuerySplice.Proofs.Parts

/-!
# Closed texts

A text is closed when the scan of it ends outside quotes at depth zero and never goes below it,
and level when the scan ends so at least.
How a scan changes depends on its mode alone, so a closed text is passed over wherever the scan
reads plainly: the scan is outside quotes again and at its old depth, and was never below it. Texts
that are passed over can be joined by blanks, put in parentheses and written behind plain text, and
a quoted section without backslashes is passed over too.
-/

namespace QuerySplice.Sql

open Text

/-- The scan of the text ends outside quotes at depth zero and never goes below it. -/
structure Closed (s : Text) : Prop where
  outside : (Scan.start.after s).isOutside = true
  depth : (Scan.start.after s).depth = 0
  nonneg : ∀ a, a <+: s → 0 ≤ (Scan.start.after a).depth

instance (s : Text) : Decidable (Closed s) :=
  decidable_of_iff
    ((Scan.start.after s).isOutside = true ∧ (Scan.start.after s).depth = 0 ∧
      ∀ a ∈ s.inits, 0 ≤ (Scan.start.after a).depth)
    ⟨fun ⟨ho, hd, hn⟩ => ⟨ho, hd, fun a ha => hn a ((List.mem_inits a s).mpr ha)⟩,
      fun h => ⟨h.outside, h.depth, fun a ha => h.nonneg a ((List.mem_inits a s).mp ha)⟩⟩

/-- The scan of the text ends outside quotes at depth zero, whatever it went through. -/
structure Level (s : Text) : Prop where
  outside : (Scan.start.after s).isOutside = true
  depth : (Scan.start.after s).depth = 0

instance (s : Text) : Decidable (Level s) :=
  decidable_of_iff ((Scan.start.after s).isOutside = true ∧ (Scan.start.after s).depth = 0)
    ⟨fun ⟨ho, hd⟩ => ⟨ho, hd⟩, fun h => ⟨h.outside, h.depth⟩⟩

namespace Scan

/-- The mode of a scan alone decides the later modes and the changes of depth. -/
theorem after_congr {st st' : Scan} (hmode : st.mode = st'.mode) (s : Text) :
    (st.after s).mode = (st'.after s).mode ∧
      (st.after s).depth + st'.depth = (st'.after s).depth + st.depth := by
  induction s generalizing st st' with
  | nil => exact ⟨hmode, Int.add_comm _ _⟩
  | cons c s ih =>
      have hout : st.outside c = st'.outside c := by simp [outside, hmode]
      have hstep : (st.step c).mode = (st'.step c).mode := by simp [step, modeAfter, hout, hmode]
      have hdepth : (st.step c).depth + st'.depth = (st'.step c).depth + st.depth := by
        simp only [step, hout]
        split <;> omega
      obtain ⟨hm, hd⟩ := ih hstep
      exact ⟨hm, by simp only [after_cons]; omega⟩

/-- Sections are opened by quote marks only. -/
def Marked (st : Scan) : Prop :=
  match st.mode with
  | .plain => True
  | .quoted mark | .escaped mark | .closing mark => isQuoteMark mark = true

theorem marked_step {st : Scan} (hst : st.Marked) (c : Char) : (st.step c).Marked := by
  by_cases hc : st.outside c = true
  · by_cases hm : isQuoteMark c = true
    · simp [Marked, step, modeAfter, hc, hm]
    · simp [Marked, step, modeAfter, hc, hm]
  · cases hmode : st.mode with
    | plain => simp [outside, hmode] at hc
    | quoted mark =>
        simp only [Marked, hmode] at hst
        by_cases he : c = '\\'
        · simpa [Marked, step, modeAfter, outside, hmode, he] using hst
        · by_cases hm : c = mark
          · subst hm
            simpa [Marked, step, modeAfter, outside, hmode, he] using hst
          · simpa [Marked, step, modeAfter, outside, hmode, he, hm] using hst
    | escaped mark =>
        simp only [Marked, hmode] at hst
        simpa [Marked, step, modeAfter, hc, hmode] using hst
    | closing mark =>
        simp only [Marked, hmode] at hst
        simpa [Marked, step, modeAfter, hc, hmode] using hst

theorem marked_after {st : Scan} (hst : st.Marked) (s : Text) : (st.after s).Marked := by
  induction s generalizing st with
  | nil => exact hst
  | cons c s ih => exact ih (marked_step hst c)

theorem marked_of_plain {st : Scan} (hst : st.mode = .plain) : st.Marked := by
  simp [Marked, hst]

/-- A character that is no quote mark is read outside quotes wherever the scan may be outside. -/
theorem outside_of_isOutside {st : Scan} (hst : st.Marked) (ho : st.isOutside = true) {c : Char}
    (hc : isQuoteMark c = false) : st.outside c = true := by
  cases hmode : st.mode with
  | plain => simp [outside, hmode]
  | quoted mark => simp [isOutside, hmode] at ho
  | escaped mark => simp [isOutside, hmode] at ho
  | closing mark =>
      simp only [Marked, hmode] at hst
      have hne : c ≠ mark := by
        rintro rfl
        exact absurd (hst.symm.trans hc) (by decide)
      simp [outside, hmode, hne]

/-- The scan comes out of the text outside quotes and at its old depth, and was never below it. -/
structure Passes (st : Scan) (s : Text) : Prop where
  outside : (st.after s).isOutside = true
  depth : (st.after s).depth = st.depth
  above : ∀ a, a <+: s → st.depth ≤ (st.after a).depth

end Scan

theorem closed_iff_passes (s : Text) : Closed s ↔ Scan.start.Passes s :=
  ⟨fun h => ⟨h.outside, h.depth, h.nonneg⟩, fun h => ⟨h.outside, h.depth, h.above⟩⟩

variable {st : Scan} {s t : Text}

/-- A closed text is passed over wherever the scan reads plainly. -/
theorem passes_iff_closed (hst : st.mode = .plain) : st.Passes s ↔ Closed s := by
  have hcongr (a : Text) := Scan.after_congr (show st.mode = Scan.start.mode from hst) a
  have hout : (st.after s).isOutside = (Scan.start.after s).isOutside := by
    simp only [Scan.isOutside, (hcongr s).1]
  have hzero : Scan.start.depth = 0 := rfl
  have hdepth (a : Text) : (st.after a).depth = (Scan.start.after a).depth + st.depth := by
    have := (hcongr a).2
    omega
  constructor
  · intro h
    refine ⟨by rw [← hout]; exact h.outside, ?_, fun a ha => ?_⟩
    · have := h.depth
      rw [hdepth] at this
      omega
    · have := h.above a ha
      rw [hdepth] at this
      omega
  · intro h
    refine ⟨by rw [hout]; exact h.outside, ?_, fun a ha => ?_⟩
    · rw [hdepth, h.depth, Int.zero_add]
    · have := h.nonneg a ha
      rw [hdepth]
      omega

namespace Scan

/-- Texts that are passed over one after the other are passed over. -/
theorem Passes.append (hs : st.Passes s) (ht : (st.after s).Passes t) : st.Passes (s ++ t) := by
  refine ⟨by rw [after_append]; exact ht.outside, by rw [after_append, ht.depth, hs.depth], ?_⟩
  rintro a ⟨b, hb⟩
  rcases List.append_eq_append_iff.mp hb with ⟨a', rfl, -⟩ | ⟨c', rfl, hc⟩
  · exact hs.above a ⟨a', rfl⟩
  · rw [after_append]
    have := ht.above c' ⟨b, hc.symm⟩
    rwa [hs.depth] at this

theorem isOutside_of_mode (hst : st.mode = .plain) : st.isOutside = true := by
  simp [isOutside, hst]

theorem passes_singleton {c : Char} (hout : st.outside c = true) (hm : isQuoteMark c = false)
    (hw : Scan.weight c = 0) : st.Passes [c] := by
  have hdepth : (st.step c).depth = st.depth := by rw [step_depth hout, hw, Int.add_zero]
  refine ⟨isOutside_of_mode (step_mode_of_plain hout hm), hdepth, ?_⟩
  rintro a ⟨b, hb⟩
  cases a with
  | nil => exact Int.le_refl _
  | cons d a =>
      obtain ⟨rfl, hrest⟩ := List.cons.inj hb
      obtain ⟨rfl, -⟩ := List.append_eq_nil_iff.mp hrest
      exact Int.le_of_eq hdepth.symm

/-- The scan reads plainly behind a blank, wherever it may be outside. -/
theorem step_blank_mode (hst : st.Marked) (ho : st.isOutside = true) :
    (st.step ' ').mode = .plain :=
  step_mode_of_plain (outside_of_isOutside hst ho (by decide)) (by decide)

theorem Passes.step_blank_mode (hst : st.mode = .plain) (hs : st.Passes s) :
    ((st.after s).step ' ').mode = .plain :=
  Scan.step_blank_mode (marked_after (marked_of_plain hst) s) hs.outside

/-- Closed texts joined by a blank are passed over. -/
theorem Passes.append_blank (hst : st.mode = .plain) (hs : st.Passes s) (ht : Closed t) :
    st.Passes (s ++ ' ' :: t) := by
  have hout : (st.after s).outside ' ' = true :=
    outside_of_isOutside (marked_after (marked_of_plain hst) s) hs.outside (by decide)
  have hblank : (st.after s).Passes [' '] := passes_singleton hout (by decide) (by decide)
  have htail : ((st.after s).step ' ').Passes t :=
    (passes_iff_closed (hs.step_blank_mode hst)).mpr ht
  exact hs.append (Passes.append (s := [' ']) hblank htail)

end Scan

namespace Closed

/-- Closed texts joined by a blank are closed. -/
theorem append (hs : Closed s) (ht : Closed t) : Closed (s ++ ' ' :: t) :=
  (closed_iff_passes _).mpr (((closed_iff_passes s).mp hs).append_blank rfl ht)

theorem level (hs : Closed s) : Level s := ⟨hs.outside, hs.depth⟩

end Closed

/-- The scan of a level text and a blank is back where every scan begins. -/
theorem Level.step_blank (hs : Level s) : (Scan.start.after s).step ' ' = Scan.start := by
  have hout : (Scan.start.after s).outside ' ' = true :=
    Scan.outside_of_isOutside (Scan.marked_after (Scan.marked_of_plain rfl) s) hs.outside
      (by decide)
  simp only [Scan.step, Scan.modeAfter, hout, hs.depth, if_true]
  rfl

/-- Level texts joined by a blank are level. -/
theorem Level.append (hs : Level s) (ht : Level t) : Level (s ++ ' ' :: t) := by
  have hafter : Scan.start.after (s ++ ' ' :: t) = Scan.start.after t := by
    rw [Scan.after_append, Scan.after_cons, hs.step_blank]
  refine ⟨?_, ?_⟩ <;> rw [hafter]
  exacts [ht.outside, ht.depth]

/-! ## Plain text, parentheses and written sections -/

/-- A text without quote marks and parentheses. -/
def PlainText (s : Text) : Prop := ∀ c ∈ s, isQuoteMark c = false ∧ Scan.weight c = 0

instance (s : Text) : Decidable (PlainText s) :=
  decidable_of_iff ((s.all fun c => !isQuoteMark c && Scan.weight c == 0) = true) (by
    simp only [List.all_eq_true, Bool.and_eq_true, Bool.not_eq_true', beq_iff_eq, PlainText])

theorem PlainText.append (hs : PlainText s) (ht : PlainText t) : PlainText (s ++ t) := fun c hc =>
  (List.mem_append.mp hc).elim (hs c) (ht c)

theorem PlainText.after (hs : PlainText s) (hst : st.mode = .plain) :
    (st.after s).mode = .plain ∧ (st.after s).depth = st.depth := by
  induction s generalizing st with
  | nil => exact ⟨hst, rfl⟩
  | cons c s ih =>
      obtain ⟨hm, hw⟩ := hs c (by simp)
      have hout : st.outside c = true := by simp [Scan.outside, hst]
      obtain ⟨hmode, hdepth⟩ :=
        ih (fun d hd => hs d (by simp [hd])) (Scan.step_mode_of_plain hout hm)
      exact ⟨hmode, by rw [Scan.after_cons, hdepth, Scan.step_depth hout, hw, Int.add_zero]⟩

theorem PlainText.of_prefix {a : Text} (hs : PlainText s) (ha : a <+: s) : PlainText a :=
  fun c hc => hs c (ha.subset hc)

theorem PlainText.passes (hs : PlainText s) (hst : st.mode = .plain) : st.Passes s :=
  ⟨Scan.isOutside_of_mode (hs.after hst).1, (hs.after hst).2,
    fun _ ha => Int.le_of_eq ((hs.of_prefix ha).after hst).2.symm⟩

/-- Plain text that is reached outside quotes is passed over, and behind it the scan reads
plainly. -/
theorem PlainText.passes_of_outside (hs : PlainText s) (hst : st.Marked)
    (ho : st.isOutside = true) : st.Passes s ∧ (s ≠ [] → (st.after s).mode = .plain) := by
  cases s with
  | nil =>
      refine ⟨⟨ho, rfl, fun a ha => ?_⟩, fun hne => absurd rfl hne⟩
      rw [List.prefix_nil.mp ha]
      exact Int.le_refl _
  | cons c s =>
      obtain ⟨hmark, hweight⟩ := hs c (by simp)
      have htail : PlainText s := fun d hd => hs d (by simp [hd])
      have hout := Scan.outside_of_isOutside hst ho hmark
      have hmode := Scan.step_mode_of_plain hout hmark
      have hfirst : st.Passes [c] := Scan.passes_singleton hout hmark hweight
      exact ⟨Scan.Passes.append (s := [c]) hfirst (htail.passes hmode),
        fun _ => (htail.after hmode).1⟩

theorem PlainText.closed (hs : PlainText s) : Closed s :=
  (closed_iff_passes s).mpr (hs.passes rfl)

/-- Plain text in front of a text leaves it closed or not. -/
theorem closed_append_iff_of_plainText (hs : PlainText s) (t : Text) :
    Closed (s ++ t) ↔ Closed t := by
  obtain ⟨hmode, hdepth⟩ := hs.after (show Scan.start.mode = .plain from rfl)
  rw [← passes_iff_closed (s := t) hmode]
  constructor
  · intro h
    refine ⟨by rw [← Scan.after_append]; exact h.outside, ?_, fun a ha => ?_⟩
    · rw [← Scan.after_append, h.depth, hdepth]
      rfl
    · rw [← Scan.after_append, hdepth]
      exact h.nonneg (s ++ a) ((List.prefix_append_right_inj s).mpr ha)
  · intro h
    exact (closed_iff_passes _).mpr ((hs.passes rfl).append h)

/-- Plain text behind a closed text leaves it closed. -/
theorem Closed.append_plainText (hs : Closed s) (ht : PlainText t) : Closed (s ++ t) := by
  have hmarked := Scan.marked_after (show Scan.start.Marked from trivial) s
  exact (closed_iff_passes _).mpr
    (((closed_iff_passes s).mp hs).append (ht.passes_of_outside hmarked hs.outside).1)

/-- Closed texts with plain text between them are closed. -/
theorem Closed.append_between {w : Text} (hs : Closed s) (hw : PlainText w) (hne : w ≠ [])
    (ht : Closed t) : Closed (s ++ (w ++ t)) := by
  have hmarked := Scan.marked_after (show Scan.start.Marked from trivial) s
  obtain ⟨hpass, hmode⟩ := hw.passes_of_outside hmarked hs.outside
  have htail := (passes_iff_closed (hmode hne)).mpr ht
  exact (closed_iff_passes _).mpr (((closed_iff_passes s).mp hs).append (hpass.append htail))

/-- The characters that open or close a section or a parenthesis. -/
def delimiters : List Char := ['\x27', '"', '\x60', '(', ')']

/-- A text of characters of a class without delimiters is plain. -/
theorem PlainText.of_class (inClass : Char → Bool) (hout : delimiters.any inClass = false)
    (hs : ∀ c ∈ s, inClass c = true) : PlainText s := by
  intro c hc
  have hne {d : Char} (hd : d ∈ delimiters) : c ≠ d := by
    rintro rfl
    exact List.any_eq_false.mp hout c hd (hs c hc)
  constructor
  · simp [isQuoteMark, hne (d := '\x27') (by decide), hne (d := '"') (by decide),
      hne (d := '\x60') (by decide)]
  · simp [Scan.weight, hne (d := '(') (by decide), hne (d := ')') (by decide)]

/-- What is no delimiter is plain. -/
theorem plain_of_not_mem_delimiters {c : Char} (hc : c ∉ delimiters) :
    isQuoteMark c = false ∧ Scan.weight c = 0 := by
  have hplain : PlainText [c] :=
    .of_class (fun d => d == c) (List.any_eq_false.mpr fun d hd hdc => hc (beq_iff_eq.mp hdc ▸ hd))
      (by simp)
  exact hplain c (by simp)

theorem Spells.exists_sameLetter {word : Text} (hs : Spells word s) :
    ∀ c ∈ s, ∃ w ∈ word, sameLetter w c = true := by
  induction hs with
  | nil => simp
  | @cons w _ word _ hc _ ih =>
      intro d hd
      rcases List.mem_cons.mp hd with rfl | hd
      · exact ⟨w, List.mem_cons_self, hc⟩
      · obtain ⟨v, hv, hsame⟩ := ih d hd
        exact ⟨v, List.mem_cons_of_mem w hv, hsame⟩

theorem Spells.isLetter {word : Text} (hw : ∀ c ∈ word, c.isAlpha = true) (hs : Spells word s) :
    ∀ c ∈ s, isLetterAnyCase c = true := by
  intro c hc
  obtain ⟨w, hmem, hsame⟩ := hs.exists_sameLetter c hc
  exact isLetterAnyCase_of_sameLetter (hw w hmem) hsame

theorem Spells.plainText {word : Text} (hw : IsWord word) (hs : Spells word s) : PlainText s :=
  .of_class isLetterAnyCase (by decide) (hs.isLetter hw.2)

theorem closed_trimStart_iff (s : Text) : Closed (trimStart s) ↔ Closed s := by
  obtain ⟨gap, hs, hg⟩ := exists_blank_append s
  have hplain : PlainText gap := .of_class isBlank (by decide) hg
  conv_rhs => rw [hs]
  exact (closed_append_iff_of_plainText hplain _).symm

/-- A closed text in parentheses is closed. -/
theorem Closed.parenthesised (hs : Closed s) : Closed ('(' :: (s ++ [')'])) := by
  have hmode : (Scan.start.step '(').mode = .plain := rfl
  have hpass : (Scan.start.step '(').Passes s := (passes_iff_closed hmode).mpr hs
  have hout : ((Scan.start.step '(').after s).outside ')' = true :=
    Scan.outside_of_isOutside (Scan.marked_after (Scan.marked_of_plain hmode) s) hpass.outside
      (by decide)
  have hdepth : ((Scan.start.step '(').after s).depth = 1 := hpass.depth
  have hend : (((Scan.start.step '(').after s).step ')').depth = 0 := by
    rw [Scan.step_depth hout, hdepth]
    rfl
  have hafter : Scan.start.after ('(' :: (s ++ [')'])) =
      ((Scan.start.step '(').after s).step ')' := by
    rw [Scan.after_cons, Scan.after_append]
    rfl
  refine ⟨?_, by rw [hafter, hend], ?_⟩
  · rw [hafter]
    exact Scan.isOutside_of_mode (Scan.step_mode_of_plain hout (by decide))
  · rintro a ⟨b, hb⟩
    cases a with
    | nil => exact Int.le_refl 0
    | cons c a =>
        obtain ⟨rfl, hrest⟩ := List.cons.inj hb
        rcases List.append_eq_append_iff.mp hrest with ⟨a', rfl, -⟩ | ⟨c', rfl, hc⟩
        · have := hpass.above a ⟨a', rfl⟩
          exact Int.le_trans (by decide) this
        · cases c' with
          | nil => simp only [List.append_nil, Scan.after_cons, hdepth]; decide
          | cons d c' =>
              obtain ⟨rfl, hnil⟩ := List.cons.inj hc
              obtain ⟨rfl, -⟩ := List.append_eq_nil_iff.mp hnil.symm
              rw [Scan.after_cons, Scan.after_append]
              exact Int.le_of_eq hend.symm

theorem EscapesKept.of_not_mem {mark : Char} (hs : '\\' ∉ s) : EscapesKept mark s := by
  induction s with
  | nil => exact .nil
  | cons c s ih =>
      have hc : c ≠ '\\' := fun h => hs (by simp [h])
      exact .other hc (ih fun h => hs (by simp [h]))

/-- A name or literal written without backslashes is read inside quotes up to its end, and the
scan is outside behind it. -/
theorem Scan.after_quotedWith {mark : Char} (hm : isQuoteMark mark = true) (hs : '\\' ∉ s)
    (hst : st.mode = .plain) :
    (st.step mark).staysInside (doubled mark s ++ [mark]) = true ∧
      (st.after (quotedWith mark s)).isOutside = true ∧
      (st.after (quotedWith mark s)).depth = st.depth := by
  have hout : st.outside mark = true := by simp [Scan.outside, hst]
  have hblank : ' ' ≠ mark := by
    rintro rfl
    exact absurd hm (by decide)
  have hq : QuotedTail mark (doubled mark s ++ [mark]) [' '] :=
    (quotedTail_doubled_iff (ne_backslash_of_mark hm) s [' ']).mpr
      (Or.inl ⟨.of_not_mem hs, by simpa using hblank⟩)
  obtain ⟨hinside, hbetween, hdepth⟩ := Scan.after_quoted hm hout hq
  refine ⟨hinside, ?_, hdepth⟩
  have hread : (st.after (quotedWith mark s)).outside ' ' = true := by
    rw [quotedWith, Scan.after_cons]
    simpa [Scan.between] using hbetween
  cases hmode : (st.after (quotedWith mark s)).mode with
  | plain => simp [Scan.isOutside, hmode]
  | closing => simp [Scan.isOutside, hmode]
  | quoted => simp [Scan.outside, hmode] at hread
  | escaped => simp [Scan.outside, hmode] at hread

/-- A name or literal written without backslashes is closed. -/
theorem closed_quotedWith {mark : Char} (hm : isQuoteMark mark = true) (hs : '\\' ∉ s) :
    Closed (quotedWith mark s) := by
  obtain ⟨hinside, hout, hdepth⟩ :=
    Scan.after_quotedWith hm hs (show Scan.start.mode = .plain from rfl)
  refine ⟨hout, hdepth, ?_⟩
  rintro a ⟨b, hb⟩
  cases a with
  | nil => exact Int.le_refl 0
  | cons c a =>
      obtain ⟨rfl, hrest⟩ := List.cons.inj hb
      have hin : (Scan.start.step c).staysInside a = true := by
        have htext : doubled c s ++ [c] = a ++ b := hrest.symm
        rw [htext, Scan.staysInside_append, Bool.and_eq_true] at hinside
        exact hinside.1
      rw [Scan.after_cons, Scan.depth_after_of_staysInside hin, Scan.step_depth rfl,
        weight_of_mark hm]
      decide

end QuerySplice.Sql
