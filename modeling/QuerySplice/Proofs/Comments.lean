import Mathlib.Data.List.Induction
import QuerySplice.Proofs.Connectives

/-!
# Comments

The scan of an edit knows no comments. The database does: it skips `-- ...` to the end of the line
and `/* ... */`, takes no quote mark and no parenthesis in them, and ends a statement at a semicolon
outside comments, quotes and parentheses. Its reading of a text is kept here beside the scan, so
that what an edit writes can be judged by it.

Letters, digits, blanks and most other characters are calm. Where no comment is open that ends with
the line, they all change the reading in the same way, and one of them does what a run of them does.
None of them opens a comment, and only a line break ends one.
-/

namespace QuerySplice.Sql

open Text

/-- Where a reading stands with respect to comments. -/
inductive Comment
  /-- Outside comments. -/
  | none
  /-- Outside comments, just after a hyphen. -/
  | dash
  /-- Outside comments, just after a slash. -/
  | slash
  /-- In a comment that ends with the line. -/
  | line
  /-- In a comment that ends with an asterisk and a slash. -/
  | block
  /-- In such a comment, just after an asterisk. -/
  | star
  deriving DecidableEq, Repr

/-- What the database knows in front of a character. -/
structure Reading where
  comment : Comment
  mode : Mode
  depth : Int
  deriving DecidableEq, Repr

namespace Reading

def start : Reading := ⟨.none, .plain, 0⟩

/-- The scan that stands in the same quotes and parentheses. -/
def scan (st : Reading) : Scan := ⟨st.depth, st.mode, false⟩

def inComment (st : Reading) : Bool :=
  match st.comment with
  | .none | .dash | .slash => false
  | .line | .block | .star => true

/-- How a character outside comments changes the comment. -/
def opened (st : Reading) (c : Char) : Comment :=
  if st.scan.outside c then
    if st.comment = .dash ∧ c = '-' then .line
    else if st.comment = .slash ∧ c = '*' then .block
    else if c = '-' then .dash
    else if c = '/' then .slash
    else .none
  else .none

def step (st : Reading) (c : Char) : Reading :=
  match st.comment with
  | .line => { st with comment := if c = '\n' then .none else .line }
  | .block => { st with comment := if c = '*' then .star else .block }
  | .star => { st with comment := if c = '/' then .none else if c = '*' then .star else .block }
  | .none | .dash | .slash => ⟨st.opened c, (st.scan.step c).mode, (st.scan.step c).depth⟩

/-- The reading behind a text. -/
def after (st : Reading) (s : Text) : Reading := s.foldl step st

@[simp] theorem after_nil (st : Reading) : st.after [] = st := rfl

@[simp] theorem after_cons (st : Reading) (c : Char) (s : Text) :
    st.after (c :: s) = (st.step c).after s := rfl

theorem after_append (st : Reading) (s t : Text) : st.after (s ++ t) = (st.after s).after t := by
  simp [after]

/-- Whether `c` ends a statement. -/
def terminates (st : Reading) (c : Char) : Bool :=
  !st.inComment && st.scan.outside c && st.depth == 0 && c == ';'

/-- No statement ends in the text. -/
def clean : Reading → Text → Bool
  | _, [] => true
  | st, c :: s => !st.terminates c && clean (st.step c) s

end Reading

/-- The text ends outside quotes and comments. -/
structure Outside (s : Text) : Prop where
  quotes : (Reading.start.after s).scan.isOutside = true
  comments : (Reading.start.after s).inComment = false

/-- A comment that two hyphens open reaches the end of the text: no line break stands behind
them. -/
def LineOpen (s : Text) : Prop :=
  ∃ front line, s = front ++ '-' :: '-' :: line ∧ Outside front ∧ '\n' ∉ line

variable {st : Reading} {s t : Text} {c : Char}

namespace Reading

theorem clean_append (st : Reading) (s t : Text) :
    st.clean (s ++ t) = (st.clean s && (st.after s).clean t) := by
  induction s generalizing st with
  | nil => rfl
  | cons c s ih => rw [List.cons_append, clean, clean, ih, after_cons, Bool.and_assoc]

theorem clean_of_isPrefix (h : st.clean t = true) (hs : s <+: t) : st.clean s = true := by
  obtain ⟨rest, rfl⟩ := hs
  rw [clean_append, Bool.and_eq_true] at h
  exact h.1

theorem clean_of_not_mem (hs : ';' ∉ s) (st : Reading) : st.clean s = true := by
  induction s generalizing st with
  | nil => rfl
  | cons c s ih =>
      have hc : c ≠ ';' := fun h => hs (by simp [h])
      rw [clean, ih fun h => hs (List.mem_cons_of_mem _ h)]
      simp [terminates, hc]

/-! ## Calm characters -/

theorem marked_step (h : st.scan.Marked) (c : Char) : (st.step c).scan.Marked := by
  have hscan := Scan.marked_step h c
  unfold step
  split <;> first | exact h | exact hscan

theorem marked_after (h : st.scan.Marked) (s : Text) : (st.after s).scan.Marked := by
  induction s generalizing st with
  | nil => exact h
  | cons c s ih => exact ih (marked_step h c)

end Reading

theorem Reading.marked_start (s : Text) : (Reading.start.after s).scan.Marked :=
  Reading.marked_after (show Reading.start.scan.Marked from trivial) s

/-- The characters that open or close quotes, parentheses and comments, or take the next one with
them. -/
def stirring : List Char := ['\\', '-', '/', '*'] ++ delimiters

/-- The text has no such character. -/
def Calm (s : Text) : Prop := ∀ c ∈ s, c ∉ stirring

instance (s : Text) : Decidable (Calm s) := List.decidableBAll (fun c => c ∉ stirring) s

theorem Calm.of_class (inClass : Char → Bool) (hout : stirring.any inClass = false)
    (hs : ∀ c ∈ s, inClass c = true) : Calm s := fun c hc hmem =>
  List.any_eq_false.mp hout c hmem (hs c hc)

theorem Calm.append (hs : Calm s) (ht : Calm t) : Calm (s ++ t) := fun c hc =>
  (List.mem_append.mp hc).elim (hs c) (ht c)

theorem Calm.head (h : Calm (c :: s)) : c ∉ stirring := h c List.mem_cons_self

theorem Calm.tail (h : Calm (c :: s)) : Calm s := fun d hd => h d (List.mem_cons_of_mem _ hd)

theorem Blank.calm (hs : Blank s) : Calm s := .of_class isBlank (by decide) hs

theorem ne_of_not_stirring {d : Char} (hc : c ∉ stirring) (hd : d ∈ stirring) : c ≠ d :=
  fun heq => hc (heq ▸ hd)

/-- A calm character is no delimiter. -/
theorem plain_of_not_stirring (hc : c ∉ stirring) : isQuoteMark c = false ∧ Scan.weight c = 0 := by
  constructor
  · by_contra hmark
    simp only [isQuoteMark, Bool.not_eq_false, Bool.or_eq_true, beq_iff_eq] at hmark
    rcases hmark with (rfl | rfl) | rfl <;> exact hc (by decide)
  · rw [Scan.weight, if_neg (ne_of_not_stirring hc (by decide)),
      if_neg (ne_of_not_stirring hc (by decide))]

theorem Scan.step_calm {st : Scan} (h : st.Marked) (hc : c ∉ stirring) :
    (st.step c).mode = (st.step ' ').mode ∧ (st.step c).depth = st.depth := by
  obtain ⟨hquote, hweight⟩ := plain_of_not_stirring hc
  have hmark {d e : Char} (hd : isQuoteMark d = true) (he : isQuoteMark e = false) : e ≠ d := by
    rintro rfl
    exact absurd (hd.symm.trans he) (by decide)
  have hbackslash : c ≠ '\\' := ne_of_not_stirring hc (by decide)
  have hspace : isQuoteMark ' ' = false ∧ ' ' ≠ '\\' := by decide
  refine ⟨?_, by simp [step, hweight]⟩
  cases hmode : st.mode with
  | plain => simp [step, modeAfter, outside, hmode, hquote, hspace]
  | quoted mark =>
      have hm : isQuoteMark mark = true := by simpa [Marked, hmode] using h
      simp [step, modeAfter, outside, hmode, hbackslash, hmark hm hquote, hmark hm hspace.1]
  | escaped mark => simp [step, modeAfter, outside, hmode]
  | closing mark =>
      have hm : isQuoteMark mark = true := by simpa [Marked, hmode] using h
      simp [step, modeAfter, outside, hmode, hquote, hspace, hmark hm hquote, hmark hm hspace.1]

namespace Reading

theorem step_outside (h : st.inComment = false) (c : Char) :
    st.step c = ⟨st.opened c, (st.scan.step c).mode, (st.scan.step c).depth⟩ := by
  cases hcomment : st.comment with
  | none | dash | slash => simp only [step, hcomment]
  | line | block | star => simp [inComment, hcomment] at h

theorem opened_calm (hc : c ∉ stirring) (st : Reading) : st.opened c = .none := by
  have hminus : c ≠ '-' := ne_of_not_stirring hc (by decide)
  have hslash : c ≠ '/' := ne_of_not_stirring hc (by decide)
  have hasterisk : c ≠ '*' := ne_of_not_stirring hc (by decide)
  simp [opened, hminus, hslash, hasterisk]

/-- How a calm character changes the comment. -/
theorem comment_step_calm (hc : c ∉ stirring) (st : Reading) :
    (st.step c).comment =
      if st.inComment = false ∨ st.comment = .line ∧ c = '\n' then .none
      else if st.comment = .line then .line else .block := by
  have hslash : c ≠ '/' := ne_of_not_stirring hc (by decide)
  have hasterisk : c ≠ '*' := ne_of_not_stirring hc (by decide)
  cases hcomment : st.comment with
  | none | dash | slash => simp [step, inComment, hcomment, opened_calm hc]
  | line => by_cases hline : c = '\n' <;> simp [step, inComment, hcomment, hline]
  | block | star => simp [step, inComment, hcomment, hslash, hasterisk]

/-- Where no comment of the line is open a calm character changes the reading as a blank does. -/
theorem step_calm (h : st.comment ≠ .line) (hst : st.scan.Marked) (hc : c ∉ stirring) :
    st.step c = st.step ' ' := by
  have hblank : ' ' ∉ stirring := by decide
  obtain ⟨hmode, hdepth⟩ := Scan.step_calm hst hc
  have hspace := (Scan.step_calm hst hblank).2
  cases hcomment : st.comment with
  | none | dash | slash =>
      have hout : st.inComment = false := by simp [inComment, hcomment]
      rw [step_outside hout, step_outside hout, opened_calm hc, opened_calm hblank, hmode, hdepth,
        hspace]
  | line => exact absurd hcomment h
  | block | star =>
      have hasterisk : c ≠ '*' := ne_of_not_stirring hc (by decide)
      have hslash : c ≠ '/' := ne_of_not_stirring hc (by decide)
      simp [step, hcomment, hasterisk, hslash]

theorem step_blank_step_blank (h : st.comment ≠ .line) (hst : st.scan.Marked) :
    (st.step ' ').step ' ' = st.step ' ' := by
  have hblank : ' ' ∉ stirring := by decide
  have hspace : isQuoteMark ' ' = false ∧ Scan.weight ' ' = 0 ∧ ' ' ≠ '\\' := by decide
  have hne {mark : Char} (hm : isQuoteMark mark = true) : ' ' ≠ mark := by
    rintro rfl
    exact absurd hm (by decide)
  cases hcomment : st.comment with
  | none | dash | slash =>
      have hout : st.inComment = false := by simp [inComment, hcomment]
      rw [step_outside hout, opened_calm hblank, step_outside rfl, opened_calm hblank]
      cases hmode : st.mode with
      | plain => simp [scan, Scan.step, Scan.modeAfter, Scan.outside, hmode, hspace]
      | quoted mark | escaped mark | closing mark =>
          have hm : isQuoteMark mark = true := by simpa [Scan.Marked, scan, hmode] using hst
          simp [scan, Scan.step, Scan.modeAfter, Scan.outside, hmode, hspace, hne hm]
  | line => exact absurd hcomment h
  | block | star => simp [step, hcomment]

/-- Calm characters keep the parentheses, and close no quotes. -/
theorem level_step_calm (hst : st.scan.Marked) (hc : c ∉ stirring) :
    (st.step c).depth = st.depth ∧
      ((st.step c).scan.isOutside = true → st.scan.isOutside = true) := by
  cases hcomment : st.comment with
  | line | block | star => simp [step, hcomment, scan]
  | none | dash | slash =>
      have hout : st.inComment = false := by simp [inComment, hcomment]
      rw [step_outside hout]
      refine ⟨(Scan.step_calm hst hc).2, fun hoc => ?_⟩
      by_contra hin
      have hstep := Scan.isOutside_step hst (plain_of_not_stirring hc).1 (Bool.eq_false_iff.mpr hin)
      exact absurd hoc (by simpa [scan, Scan.isOutside] using hstep)

/-! ## Calm texts -/

theorem level_after_calm (hst : st.scan.Marked) (hs : Calm s) :
    (st.after s).depth = st.depth ∧
      ((st.after s).scan.isOutside = true → st.scan.isOutside = true) := by
  induction s generalizing st with
  | nil => exact ⟨rfl, id⟩
  | cons c s ih =>
      obtain ⟨hdepth, hout⟩ := level_step_calm hst hs.head
      obtain ⟨hdepth', hout'⟩ := ih (marked_step hst c) hs.tail
      exact ⟨hdepth'.trans hdepth, hout ∘ hout'⟩

/-- A calm text opens no comment of the line. -/
theorem ne_line_after_calm (h : st.comment ≠ .line) (hs : Calm s) :
    (st.after s).comment ≠ .line := by
  induction s generalizing st with
  | nil => exact h
  | cons c s ih =>
      refine ih ?_ hs.tail
      rw [comment_step_calm hs.head]
      simp only [h, false_and, or_false, if_false]
      split <;> decide

/-- A calm text ends no comment but by a line break. -/
theorem inComment_after_calm (hs : Calm s) (hline : st.comment = .line → '\n' ∉ s) :
    (st.after s).inComment = st.inComment := by
  induction s generalizing st with
  | nil => rfl
  | cons c s ih =>
      have hcomment := comment_step_calm hs.head st
      have hnext : (st.step c).comment = .line → '\n' ∉ s := fun hopen => by
        have hst : st.comment = .line := by
          by_contra hne
          simp only [hne, false_and, or_false, if_false] at hcomment
          rw [hcomment] at hopen
          split_ifs at hopen
        exact fun hmem => hline hst (List.mem_cons_of_mem _ hmem)
      rw [after_cons, ih hs.tail hnext, inComment, hcomment]
      cases hst : st.comment with
      | none | dash | slash | block | star => simp [inComment, hst]
      | line =>
          have hc : c ≠ '\n' := fun heq => hline hst (heq ▸ List.mem_cons_self)
          simp [inComment, hst, hc]

/-- Where no comment of the line is open a calm text does what a blank does. -/
theorem after_calm (h : st.comment ≠ .line) (hst : st.scan.Marked) (hs : Calm s) (hne : s ≠ []) :
    st.after s = st.step ' ' := by
  induction s generalizing st with
  | nil => exact absurd rfl hne
  | cons c s ih =>
      have hstep := step_calm h hst hs.head
      rw [after_cons]
      by_cases hnil : s = []
      · rw [hnil, after_nil, hstep]
      · have hc : Calm [c] := List.forall_mem_singleton.mpr hs.head
        have hnext : (st.step c).comment ≠ .line := ne_line_after_calm h hc
        rw [ih hnext (marked_step hst c) hs.tail hnil, hstep, step_blank_step_blank h hst]

/-- A comment of the line takes everything up to the line break. -/
theorem after_line (h : st.comment = .line) (hs : '\n' ∉ s) :
    st.after s = st ∧ st.clean s = true := by
  induction s with
  | nil => exact ⟨rfl, rfl⟩
  | cons c s ih =>
      obtain ⟨hc, htail⟩ : '\n' ≠ c ∧ '\n' ∉ s := by simpa using hs
      have hstep : st.step c = st := by
        rw [step, h]
        simp only [if_neg hc.symm, ← h]
      obtain ⟨hafter, hclean⟩ := ih htail
      rw [after_cons, clean, hstep, hafter, hclean]
      exact ⟨rfl, by simp [terminates, inComment, h]⟩

/-! ## Comments of the line -/

theorem step_hyphen (h : st.scan.isOutside = true) (hst : st.scan.Marked)
    (hc : st.inComment = false) :
    (st.step '-').scan.isOutside = true ∧
      (st.step '-').comment = if st.comment = .dash then .line else .dash := by
  have hmark : isQuoteMark '-' = false := by decide
  have hout : st.scan.outside '-' = true := Scan.outside_of_isOutside hst h hmark
  rw [step_outside hc]
  constructor
  · exact Scan.isOutside_of_mode (Scan.step_mode_of_plain hout hmark)
  · simp [opened, hout]

/-- Two hyphens open a comment of the line, also behind a third one. -/
theorem comment_after_hyphens (h : st.scan.isOutside = true) (hst : st.scan.Marked)
    (hc : st.inComment = false) : (st.after ['-', '-']).comment = .line := by
  obtain ⟨hquotes, hcomment⟩ := step_hyphen h hst hc
  rw [after_cons, after_cons, after_nil]
  by_cases hdash : st.comment = .dash
  · rw [if_pos hdash] at hcomment
    have hline : (st.step '-').after ['-'] = st.step '-' :=
      (after_line hcomment (by decide)).1
    exact (congrArg comment hline).trans hcomment
  · rw [if_neg hdash] at hcomment
    have hnext : (st.step '-').inComment = false := by simp [inComment, hcomment]
    rw [(step_hyphen hquotes (marked_step hst '-') hnext).2, if_pos hcomment]

theorem dash_of_step (h : (st.step c).comment = .dash) :
    c = '-' ∧ st.scan.isOutside = true ∧ st.inComment = false := by
  cases hcomment : st.comment with
  | line | block | star =>
      simp only [step, hcomment] at h
      split_ifs at h
  | none | dash | slash =>
      simp only [step, hcomment, opened] at h
      split_ifs at h with hout hline hblock hc hslash
      exact ⟨hc, Scan.isOutside_of_outside hout, by simp [inComment, hcomment]⟩

theorem line_of_step (h : (st.step c).comment = .line) :
    st.comment = .line ∧ c ≠ '\n' ∨ st.comment = .dash ∧ c = '-' := by
  cases hcomment : st.comment with
  | line =>
      left
      simp only [step, hcomment] at h
      exact ⟨rfl, fun hc => by simp [hc] at h⟩
  | block | star =>
      simp only [step, hcomment] at h
      split_ifs at h
  | none | dash | slash =>
      simp only [step, hcomment, opened] at h
      split_ifs at h
      simp_all

end Reading

theorem LineOpen.append (h : LineOpen s) (ht : '\n' ∉ t) : LineOpen (s ++ t) := by
  obtain ⟨front, line, rfl, hfront, hline⟩ := h
  exact ⟨front, line ++ t, by simp, hfront, by simp [hline, ht]⟩

theorem exists_of_dash (h : (Reading.start.after s).comment = .dash) :
    ∃ front, s = front ++ ['-'] ∧ Outside front := by
  rcases List.eq_nil_or_concat s with rfl | ⟨front, c, rfl⟩
  · cases h
  · rw [List.concat_eq_append, Reading.after_append] at h
    obtain ⟨rfl, hquotes, hcomments⟩ := Reading.dash_of_step h
    exact ⟨front, List.concat_eq_append, hquotes, hcomments⟩

/-- A comment of the line is open where the reading stands in one. -/
theorem lineOpen_iff : LineOpen s ↔ (Reading.start.after s).comment = .line := by
  constructor
  · rintro ⟨front, line, rfl, ⟨hquotes, hcomments⟩, hline⟩
    rw [Reading.after_append]
    have hmarked := Reading.marked_start front
    have hopen : ((Reading.start.after front).after ['-', '-']).comment = .line :=
      Reading.comment_after_hyphens hquotes hmarked hcomments
    rw [show '-' :: '-' :: line = ['-', '-'] ++ line from rfl, Reading.after_append,
      (Reading.after_line hopen hline).1, hopen]
  · intro h
    induction s using List.reverseRecOn with
    | nil => cases h
    | append_singleton s c ih =>
        rw [Reading.after_append] at h
        rcases Reading.line_of_step h with ⟨hopen, hc⟩ | ⟨hdash, rfl⟩
        · exact (ih hopen).append (by simpa using hc.symm)
        · obtain ⟨front, rfl, hfront⟩ := exists_of_dash hdash
          exact ⟨front, [], by simp, hfront, by simp⟩

/-- Calm characters open no comment of the line. -/
theorem LineOpen.of_append_calm (ht : Calm t) (h : LineOpen (s ++ t)) : LineOpen s := by
  rw [lineOpen_iff] at h ⊢
  by_contra hclosed
  rw [Reading.after_append] at h
  exact Reading.ne_line_after_calm hclosed ht h

end QuerySplice.Sql
