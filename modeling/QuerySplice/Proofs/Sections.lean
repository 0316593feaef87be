import QuerySplice.Sql.Quote
import QuerySplice.Sql.Scan
import QuerySplice.Proofs.Readers

/-!
# Quoted sections

A quoted section is described from its opening mark on: a backslash takes the next character with
it, a doubled mark stays inside, and a single mark closes. The scan agrees with this description:
it stays inside for exactly the characters of the section.

Names and literals are written with their marks doubled and with backslashes as they are. The
section that the scan reads is then the written one exactly when no backslash takes a mark along,
neither a mark of the text nor the closing one.
-/

namespace QuerySplice.Sql

/-- What follows an opening mark: the rest of the section, with its closing mark if it has one, and
the text behind the section. -/
inductive QuotedTail (mark : Char) : Text → Text → Prop
  | ended : QuotedTail mark [] []
  | closed {rest : Text} (h : nextIs (· == mark) rest = false) : QuotedTail mark [mark] rest
  | doubled {inside rest : Text} (h : QuotedTail mark inside rest) :
      QuotedTail mark (mark :: mark :: inside) rest
  | escaped {c : Char} {inside rest : Text} (h : QuotedTail mark inside rest) :
      QuotedTail mark ('\\' :: c :: inside) rest
  | lastEscape : QuotedTail mark ['\\'] []
  | other {c : Char} {inside rest : Text} (hm : c ≠ mark) (he : c ≠ '\\')
      (h : QuotedTail mark inside rest) : QuotedTail mark (c :: inside) rest

theorem QuotedTail.of_cons_other {mark c : Char} {inside rest : Text} (hm : c ≠ mark)
    (he : c ≠ '\\') (h : QuotedTail mark (c :: inside) rest) : QuotedTail mark inside rest := by
  cases h with
  | closed => exact absurd rfl hm
  | doubled => exact absurd rfl hm
  | escaped => exact absurd rfl he
  | lastEscape => exact absurd rfl he
  | other _ _ h => exact h

/-- Every text behind an opening mark begins with the rest of a section. -/
theorem exists_quotedTail (mark : Char) :
    ∀ s : Text, ∃ inside rest, s = inside ++ rest ∧ QuotedTail mark inside rest
  | [] => ⟨[], [], rfl, .ended⟩
  | [c] => by
      by_cases hm : c = mark
      · subst hm
        exact ⟨[c], [], rfl, .closed rfl⟩
      · by_cases he : c = '\\'
        · subst he
          exact ⟨['\\'], [], rfl, .lastEscape⟩
        · exact ⟨[c], [], rfl, .other hm he .ended⟩
  | c :: d :: s => by
      obtain ⟨inside, rest, hs, h⟩ := exists_quotedTail mark s
      obtain ⟨inside', rest', hs', h'⟩ := exists_quotedTail mark (d :: s)
      by_cases hm : c = mark
      · subst hm
        by_cases hd : d = c
        · subst hd
          exact ⟨d :: d :: inside, rest, by simp [hs], .doubled h⟩
        · exact ⟨[c], d :: s, rfl, .closed (by simpa using hd)⟩
      · by_cases he : c = '\\'
        · subst he
          exact ⟨'\\' :: d :: inside, rest, by simp [hs], .escaped h⟩
        · exact ⟨c :: inside', rest', by simp [hs'], .other hm he h'⟩

namespace Scan

/-- Whether all of the text is read inside a quoted section. -/
def staysInside : Scan → Text → Bool
  | _, [] => true
  | st, c :: s => !st.outside c && (st.step c).staysInside s

/-- How many characters are read before one stands outside quotes. -/
def insideLength : Scan → Text → Nat
  | _, [] => 0
  | st, c :: s => if st.outside c then 0 else (st.step c).insideLength s + 1

theorem insideLength_append {st : Scan} {s : Text} (hs : st.staysInside s = true) (t : Text) :
    st.insideLength (s ++ t) = s.length + (st.after s).insideLength t := by
  induction s generalizing st with
  | nil => simp
  | cons c s ih =>
      simp only [staysInside, Bool.and_eq_true, Bool.not_eq_true'] at hs
      simp only [List.cons_append, insideLength, hs.1, Bool.false_eq_true, if_false, ih hs.2,
        after_cons, List.length_cons]
      omega

theorem staysInside_append (st : Scan) (s t : Text) :
    st.staysInside (s ++ t) = (st.staysInside s && (st.after s).staysInside t) := by
  induction s generalizing st with
  | nil => rfl
  | cons c s ih => simp only [List.cons_append, staysInside, after_cons, ih, Bool.and_assoc]

theorem depth_after_of_staysInside {st : Scan} {s : Text} (hs : st.staysInside s = true) :
    (st.after s).depth = st.depth := by
  induction s generalizing st with
  | nil => rfl
  | cons c s ih =>
      simp only [staysInside, Bool.and_eq_true, Bool.not_eq_true'] at hs
      rw [after_cons, ih hs.2]
      simp [step, hs.1]

theorem outside_of_staysInside {st : Scan} {s a b : Text} {c : Char}
    (hs : st.staysInside s = true) (hsplit : s = a ++ c :: b) :
    (st.after a).outside c = false := by
  induction a generalizing st s with
  | nil =>
      subst hsplit
      simp only [List.nil_append, staysInside, Bool.and_eq_true, Bool.not_eq_true'] at hs
      exact hs.1
  | cons d a ih =>
      subst hsplit
      simp only [List.cons_append, staysInside, Bool.and_eq_true] at hs
      exact ih hs.2 rfl

end Scan

/-- The scan reads the rest of a section inside quotes, and what follows outside. -/
theorem QuotedTail.scan {mark : Char} (hmark : mark ≠ '\\') {inside rest : Text}
    (h : QuotedTail mark inside rest) {st : Scan} (hst : st.mode = .quoted mark) :
    st.staysInside inside = true ∧ (rest = [] ∨ nextIs (st.after inside).outside rest = true) := by
  induction h generalizing st with
  | ended => exact ⟨rfl, Or.inl rfl⟩
  | @closed rest h =>
      have hmode : (st.step mark).mode = .closing mark := by
        simp [Scan.step, Scan.modeAfter, Scan.outside, hst, hmark]
      refine ⟨by simp [Scan.staysInside, Scan.outside, hst], ?_⟩
      cases rest with
      | nil => exact Or.inl rfl
      | cons c rest =>
          have hc : c ≠ mark := by simpa using h
          exact Or.inr (by simp [Scan.outside, hmode, hc])
  | doubled h ih =>
      have hmode : ((st.step mark).step mark).mode = .quoted mark := by
        simp [Scan.step, Scan.modeAfter, Scan.outside, hst, hmark]
      have hinside : (st.step mark).outside mark = false := by
        simp [Scan.step, Scan.modeAfter, Scan.outside, hst, hmark]
      obtain ⟨hi, hr⟩ := ih hmode
      exact ⟨by simp [Scan.staysInside, Scan.outside, hst] at hinside ⊢; exact ⟨hinside, hi⟩, hr⟩
  | @escaped c inside rest h ih =>
      have hmode : ((st.step '\\').step c).mode = .quoted mark := by
        simp [Scan.step, Scan.modeAfter, Scan.outside, hst]
      have hinside : (st.step '\\').outside c = false := by
        simp [Scan.step, Scan.modeAfter, Scan.outside, hst]
      obtain ⟨hi, hr⟩ := ih hmode
      exact ⟨by simp [Scan.staysInside, Scan.outside, hst] at hinside ⊢; exact ⟨hinside, hi⟩, hr⟩
  | lastEscape => exact ⟨by simp [Scan.staysInside, Scan.outside, hst], Or.inl rfl⟩
  | @other c inside rest hm he h ih =>
      have hmode : (st.step c).mode = .quoted mark := by
        simp [Scan.step, Scan.modeAfter, Scan.outside, hst, hm, he]
      obtain ⟨hi, hr⟩ := ih hmode
      exact ⟨by simp [Scan.staysInside, Scan.outside, hst]; exact hi, hr⟩

/-- The offset just past the quoted section that the text opens with. -/
def sectionEnd : Text → Nat
  | [] => 0
  | mark :: s => (Scan.start.step mark).insideLength s + 1

theorem step_mode_of_mark {st : Scan} {mark : Char} (hmark : isQuoteMark mark = true)
    (hst : st.outside mark = true) : (st.step mark).mode = .quoted mark := by
  simp [Scan.step, Scan.modeAfter, hst, hmark]

theorem ne_backslash_of_mark {mark : Char} (hmark : isQuoteMark mark = true) : mark ≠ '\\' := by
  rintro rfl
  exact absurd hmark (by decide)

/-- The section ends where its description says. -/
theorem sectionEnd_of_quotedTail {mark : Char} (hmark : isQuoteMark mark = true)
    {inside rest : Text} (h : QuotedTail mark inside rest) :
    sectionEnd (mark :: (inside ++ rest)) = inside.length + 1 := by
  have hmode : (Scan.start.step mark).mode = .quoted mark := step_mode_of_mark hmark rfl
  obtain ⟨hi, hr⟩ := h.scan (ne_backslash_of_mark hmark) hmode
  rw [sectionEnd, Scan.insideLength_append hi]
  rcases hr with rfl | hr
  · rfl
  · cases rest with
    | nil => rfl
    | cons c rest =>
        rw [nextIs_cons] at hr
        simp [Scan.insideLength, hr]

theorem sectionEnd_eq_iff {mark : Char} (hmark : isQuoteMark mark = true) (inside rest : Text) :
    sectionEnd (mark :: (inside ++ rest)) = inside.length + 1 ↔ QuotedTail mark inside rest := by
  constructor
  · intro h
    obtain ⟨inside', rest', hs, ht⟩ := exists_quotedTail mark (inside ++ rest)
    rw [hs, sectionEnd_of_quotedTail hmark ht] at h
    obtain ⟨rfl, rfl⟩ := List.append_inj hs (by omega)
    exact ht
  · exact sectionEnd_of_quotedTail hmark

/-- Every backslash of the text takes a character along that is not the mark. -/
inductive EscapesKept (mark : Char) : Text → Prop
  | nil : EscapesKept mark []
  | escape {c : Char} {s : Text} (hc : c ≠ mark) (hs : EscapesKept mark s) :
      EscapesKept mark ('\\' :: c :: s)
  | other {c : Char} {s : Text} (hc : c ≠ '\\') (hs : EscapesKept mark s) :
      EscapesKept mark (c :: s)

/-- A text keeps its escapes, or has a first backslash that takes a mark along or ends the text. -/
theorem escapesKept_or (mark : Char) : ∀ s : Text, EscapesKept mark s ∨
    ∃ u v, EscapesKept mark u ∧ s = u ++ '\\' :: v ∧ (v = [] ∨ v.head? = some mark)
  | [] => Or.inl .nil
  | [c] => by
      by_cases hc : c = '\\'
      · subst hc
        exact Or.inr ⟨[], [], .nil, rfl, Or.inl rfl⟩
      · exact Or.inl (.other hc .nil)
  | c :: d :: s => by
      by_cases hc : c = '\\'
      · subst hc
        by_cases hd : d = mark
        · subst hd
          exact Or.inr ⟨[], d :: s, .nil, rfl, Or.inr rfl⟩
        · rcases escapesKept_or mark s with h | ⟨u, v, hu, rfl, hv⟩
          · exact Or.inl (.escape hd h)
          · exact Or.inr ⟨'\\' :: d :: u, v, .escape hd hu, rfl, hv⟩
      · rcases escapesKept_or mark (d :: s) with h | ⟨u, v, hu, hs, hv⟩
        · exact Or.inl (.other hc h)
        · exact Or.inr ⟨c :: u, v, .other hc hu, by rw [hs, List.cons_append], hv⟩

@[simp] theorem doubled_nil (mark : Char) : doubled mark [] = [] := rfl

theorem doubled_cons_mark (mark : Char) (s : Text) :
    doubled mark (mark :: s) = mark :: mark :: doubled mark s := by
  simp [doubled]

theorem doubled_cons_of_ne {mark c : Char} (hc : c ≠ mark) (s : Text) :
    doubled mark (c :: s) = c :: doubled mark s := by
  simp [doubled, hc]

/-- Behind a text that keeps its escapes the section goes on as if it began there. -/
theorem quotedTail_doubled_append {mark : Char} (hmark : mark ≠ '\\') {s : Text}
    (hs : EscapesKept mark s) (t rest : Text) :
    QuotedTail mark (doubled mark s ++ t) rest ↔ QuotedTail mark t rest := by
  induction hs with
  | nil => rfl
  | @escape c s hc hs ih =>
      rw [doubled_cons_of_ne hmark.symm, doubled_cons_of_ne hc, List.cons_append, List.cons_append]
      constructor
      · intro h
        cases h with
        | doubled => exact absurd rfl hmark
        | escaped h => exact ih.mp h
        | other _ he => exact absurd rfl he
      · exact fun h => .escaped (ih.mpr h)
  | @other c s hc hs ih =>
      by_cases hcm : c = mark
      · subst hcm
        rw [doubled_cons_mark, List.cons_append, List.cons_append]
        constructor
        · intro h
          cases h with
          | doubled h => exact ih.mp h
          | escaped => exact absurd rfl hc
          | other hm => exact absurd rfl hm
        · exact fun h => .doubled (ih.mpr h)
      · rw [doubled_cons_of_ne hcm, List.cons_append]
        constructor
        · exact fun h => ih.mp (h.of_cons_other hcm hc)
        · exact fun h => .other hcm hc (ih.mpr h)

/-- Behind one mark too many only more marks keep the section open, and then it never closes. -/
theorem quotedTail_mark_doubled_iff {mark : Char} (hmark : mark ≠ '\\') (s rest : Text) :
    QuotedTail mark (mark :: (doubled mark s ++ [mark])) rest ↔
      rest = [] ∧ ∃ k, s = List.replicate k mark := by
  induction s with
  | nil =>
      constructor
      · intro h
        cases h with
        | doubled h =>
            cases h with
            | ended => exact ⟨rfl, 0, rfl⟩
        | escaped => exact absurd rfl hmark
        | other hm => exact absurd rfl hm
      · rintro ⟨rfl, -⟩
        exact .doubled .ended
  | cons c s ih =>
      by_cases hc : c = mark
      · subst hc
        rw [doubled_cons_mark, List.cons_append, List.cons_append]
        constructor
        · intro h
          cases h with
          | doubled h =>
              obtain ⟨rfl, k, rfl⟩ := ih.mp h
              exact ⟨rfl, k + 1, rfl⟩
          | escaped => exact absurd rfl hmark
          | other hm => exact absurd rfl hm
        · rintro ⟨rfl, k, hk⟩
          cases k with
          | zero => simp at hk
          | succ k => exact .doubled (ih.mpr ⟨rfl, k, (List.cons.inj hk).2⟩)
      · rw [doubled_cons_of_ne hc, List.cons_append]
        constructor
        · intro h
          cases h with
          | doubled => exact absurd rfl hc
          | escaped => exact absurd rfl hmark
          | other hm => exact absurd rfl hm
        · rintro ⟨-, k, hk⟩
          cases k with
          | zero => simp at hk
          | succ k => exact absurd (List.cons.inj hk).1 hc

/-- What the value of a written section has to be for the scan to read the section as written: its
escapes are kept, or nothing follows and only marks stand behind the first escape that is not. -/
def ReadsAsWritten (mark : Char) (value following : Text) : Prop :=
  (EscapesKept mark value ∧ nextIs (· == mark) following = false) ∨
    (following = [] ∧
      ∃ u k, EscapesKept mark u ∧ value = u ++ '\\' :: List.replicate k mark)

theorem quotedTail_doubled_iff {mark : Char} (hmark : mark ≠ '\\') (value following : Text) :
    QuotedTail mark (doubled mark value ++ [mark]) following ↔
      ReadsAsWritten mark value following := by
  have hkept {u : Text} (hu : EscapesKept mark u) (v : Text) :
      QuotedTail mark (doubled mark (u ++ v) ++ [mark]) following ↔
        QuotedTail mark (doubled mark v ++ [mark]) following := by
    rw [doubled_append, List.append_assoc]
    exact quotedTail_doubled_append hmark hu _ _
  constructor
  · intro h
    rcases escapesKept_or mark value with hv | ⟨u, v, hu, rfl, hv⟩
    · left
      refine ⟨hv, ?_⟩
      rw [quotedTail_doubled_append hmark hv] at h
      cases h with
      | closed h => exact h
      | lastEscape => exact absurd rfl hmark
      | other hm => exact absurd rfl hm
    · right
      rw [hkept hu, doubled_cons_of_ne hmark.symm] at h
      rcases hv with rfl | hv
      · cases h with
        | doubled => exact absurd rfl hmark
        | escaped h =>
            cases h with
            | ended => exact ⟨rfl, u, 0, hu, rfl⟩
        | other _ he => exact absurd rfl he
      · obtain ⟨v, rfl⟩ := List.head?_eq_some_iff.mp hv
        rw [doubled_cons_mark] at h
        cases h with
        | doubled => exact absurd rfl hmark
        | escaped h =>
            obtain ⟨hf, k, rfl⟩ := (quotedTail_mark_doubled_iff hmark v following).mp h
            exact ⟨hf, u, k + 1, hu, rfl⟩
        | other _ he => exact absurd rfl he
  · rintro (⟨hv, hf⟩ | ⟨rfl, u, k, hu, rfl⟩)
    · exact (quotedTail_doubled_append hmark hv _ _).mpr (.closed hf)
    · rw [hkept hu, doubled_cons_of_ne hmark.symm]
      cases k with
      | zero => exact .escaped .ended
      | succ k =>
          rw [List.replicate_succ, doubled_cons_mark]
          exact .escaped ((quotedTail_mark_doubled_iff hmark _ _).mpr ⟨rfl, k, rfl⟩)

theorem sectionEnd_quotedWith_iff {mark : Char} (hmark : isQuoteMark mark = true)
    (value following : Text) :
    sectionEnd (quotedWith mark value ++ following) = (quotedWith mark value).length ↔
      ReadsAsWritten mark value following := by
  rw [← quotedTail_doubled_iff (ne_backslash_of_mark hmark)]
  exact sectionEnd_eq_iff hmark (doubled mark value ++ [mark]) following

/-- A written literal is the section that the scan reads there exactly when its value keeps its
escapes and no further mark follows, or when nothing follows and the literal is never closed. A
written name is the section read there on the same condition for its own mark. -/
theorem sectionEnd_quoted_iff (value following : Text) :
    (sectionEnd (quoteLiteral value ++ following) = (quoteLiteral value).length ↔
      ReadsAsWritten '\x27' value following) ∧
    (sectionEnd (quoteName value ++ following) = (quoteName value).length ↔
      ReadsAsWritten '"' value following) :=
  ⟨sectionEnd_quotedWith_iff rfl value following, sectionEnd_quotedWith_iff rfl value following⟩

/-- A value that ends in a backslash takes the closing mark along, and the section swallows what
follows the literal. -/
theorem sectionEnd_quoteLiteral_backslash :
    nextIs (· == '\x27') " AND x".toList = false ∧
      sectionEnd (quoteLiteral ['\\'] ++ " AND x".toList) ≠ (quoteLiteral ['\\']).length := by
  decide

end QuerySplice.Sql
