import QuerySplice.Proofs.Sections

/-!
# The parts of a query

A query is taken apart from left to right into quoted sections, parentheses and plain characters.
The parts are described without the scan. The scan reads a plain character where the text has a
plain part, and its depth there is the number of parentheses opened before less those closed.
-/

namespace QuerySplice.Sql

/-- A part of a query that is read as a whole. -/
inductive Part
  /-- A quoted section with its marks. -/
  | quoted (s : Text)
  | opening
  | closing
  | plain (c : Char)

def Part.text : Part → Text
  | quoted s => s
  | opening => ['(']
  | closing => [')']
  | plain c => [c]

def Part.weight : Part → Int
  | opening => 1
  | closing => -1
  | quoted _ | plain _ => 0

def textOf (parts : List Part) : Text := parts.flatMap Part.text

/-- Opening parentheses less closing ones. -/
def depthOf : List Part → Int
  | [] => 0
  | part :: parts => part.weight + depthOf parts

/-- The part that a character outside quotes is. -/
def Part.ofChar (c : Char) : Part :=
  if c = '(' then .opening else if c = ')' then .closing else .plain c

/-- The parts of a text from left to right. -/
inductive Decomposes : Text → List Part → Prop
  | nil : Decomposes [] []
  | quoted {mark : Char} {inside rest : Text} {parts : List Part} (hm : isQuoteMark mark = true)
      (hq : QuotedTail mark inside rest) (h : Decomposes rest parts) :
      Decomposes (mark :: (inside ++ rest)) (.quoted (mark :: inside) :: parts)
  | single {c : Char} {s : Text} {parts : List Part} (hm : isQuoteMark c = false)
      (h : Decomposes s parts) : Decomposes (c :: s) (.ofChar c :: parts)

theorem Part.ofChar_text (c : Char) : (Part.ofChar c).text = [c] := by
  unfold Part.ofChar
  split
  · next h => rw [h]; rfl
  · split
    · next h => rw [h]; rfl
    · rfl

theorem Part.ofChar_weight (c : Char) : (Part.ofChar c).weight = Scan.weight c := by
  unfold Part.ofChar Scan.weight
  split
  · rfl
  · split <;> rfl

theorem Part.ofChar_eq_plain_iff {c d : Char} :
    Part.ofChar c = .plain d ↔ c = d ∧ c ≠ '(' ∧ c ≠ ')' := by
  unfold Part.ofChar
  split
  · next h => simp [h]
  · next ho =>
      split
      · next h => simp [h]
      · next hc => simp [ho, hc]

@[simp] theorem textOf_nil : textOf [] = [] := rfl

@[simp] theorem textOf_cons (part : Part) (parts : List Part) :
    textOf (part :: parts) = part.text ++ textOf parts := rfl

@[simp] theorem depthOf_nil : depthOf [] = 0 := rfl

@[simp] theorem depthOf_cons (part : Part) (parts : List Part) :
    depthOf (part :: parts) = part.weight + depthOf parts := rfl

/-- The parts of a text make it up. -/
theorem Decomposes.textOf_eq {s : Text} {parts : List Part} (h : Decomposes s parts) :
    textOf parts = s := by
  induction h with
  | nil => rfl
  | quoted hm hq h ih => simp [ih, Part.text]
  | single hm h ih => simp [ih, Part.ofChar_text]

/-- Every text has its parts. -/
theorem exists_decomposes (s : Text) : ∃ parts, Decomposes s parts := by
  cases s with
  | nil => exact ⟨[], .nil⟩
  | cons c s =>
      by_cases hm : isQuoteMark c = true
      · obtain ⟨inside, rest, rfl, hq⟩ := exists_quotedTail c s
        have hlt : rest.length < (inside ++ rest).length + 1 := by
          rw [List.length_append]
          omega
        obtain ⟨parts, h⟩ := exists_decomposes rest
        exact ⟨_, Decomposes.quoted hm hq h⟩
      · obtain ⟨parts, h⟩ := exists_decomposes s
        exact ⟨_, Decomposes.single (Bool.eq_false_iff.mpr hm) h⟩
termination_by s.length

/-! ## The scan reads the parts -/

/-- The scan stands between two parts when it reads what comes next outside quotes. -/
def Scan.between (st : Scan) (s : Text) : Prop := s = [] ∨ nextIs st.outside s = true

theorem Scan.between_of_plain {st : Scan} (hst : st.mode = .plain) (s : Text) : st.between s := by
  cases s with
  | nil => exact Or.inl rfl
  | cons c s => exact Or.inr (by simp [Scan.outside, hst])

/-- A character that opens no section is followed by plain reading. -/
theorem Scan.step_mode_of_plain {st : Scan} {c : Char} (hst : st.outside c = true)
    (hc : isQuoteMark c = false) : (st.step c).mode = .plain := by
  simp [Scan.step, Scan.modeAfter, hst, hc]

theorem Scan.step_depth {st : Scan} {c : Char} (hst : st.outside c = true) :
    (st.step c).depth = st.depth + Scan.weight c := by
  simp [Scan.step, hst]

theorem weight_of_mark {mark : Char} (hm : isQuoteMark mark = true) : Scan.weight mark = 0 := by
  have ho : mark ≠ '(' := by
    rintro rfl
    exact absurd hm (by decide)
  have hc : mark ≠ ')' := by
    rintro rfl
    exact absurd hm (by decide)
  simp [Scan.weight, ho, hc]

/-- The scan behind a quoted part: between parts again, at the same depth. -/
theorem Scan.after_quoted {st : Scan} {mark : Char} {inside rest : Text}
    (hm : isQuoteMark mark = true) (hst : st.outside mark = true)
    (hq : QuotedTail mark inside rest) :
    (st.step mark).staysInside inside = true ∧ ((st.step mark).after inside).between rest ∧
      ((st.step mark).after inside).depth = st.depth := by
  obtain ⟨hi, hr⟩ := hq.scan (ne_backslash_of_mark hm) (step_mode_of_mark hm hst)
  refine ⟨hi, hr, ?_⟩
  rw [Scan.depth_after_of_staysInside hi, Scan.step_depth hst, weight_of_mark hm, Int.add_zero]

/-- Whether the scan reads `c` as a plain character. -/
def Scan.isPlainAt (st : Scan) (c : Char) : Prop :=
  st.outside c = true ∧ isQuoteMark c = false ∧ c ≠ '(' ∧ c ≠ ')'

/-- A character of two texts put together stands in the second or in the first. -/
theorem append_eq_append_cons {s t a b : Text} {c : Char} (h : s ++ t = a ++ c :: b) :
    (∃ a', a = s ++ a' ∧ t = a' ++ c :: b) ∨ ∃ b', s = a ++ c :: b' := by
  rcases List.append_eq_append_iff.mp h with ⟨a', ha, ht⟩ | ⟨c', hs, hb⟩
  · exact Or.inl ⟨a', ha, ht⟩
  · cases c' with
    | nil => exact Or.inl ⟨[], by simpa using hs.symm, by simpa using hb.symm⟩
    | cons d c' =>
        obtain ⟨rfl, -⟩ := List.cons.inj hb
        exact Or.inr ⟨c', hs⟩

/-- Where the scan reads a plain character, the text has a plain part. -/
theorem Decomposes.exists_plain {s : Text} {parts : List Part} (h : Decomposes s parts)
    {st : Scan} (hst : st.between s) {a b : Text} {c : Char} (hs : s = a ++ c :: b)
    (hc : (st.after a).isPlainAt c) :
    ∃ before after, parts = before ++ .plain c :: after ∧ textOf before = a ∧
      (st.after a).depth = st.depth + depthOf before := by
  induction h generalizing st a with
  | nil => simp at hs
  | @quoted mark inside rest parts hm hq h ih =>
      have hout : st.outside mark = true := by simpa [Scan.between] using hst
      obtain ⟨hi, hbet, hdep⟩ := Scan.after_quoted hm hout hq
      cases a with
      | nil =>
          obtain ⟨rfl, -⟩ := List.cons.inj hs
          exact absurd (hm.symm.trans hc.2.1) (by decide)
      | cons d a =>
          obtain ⟨rfl, hs'⟩ := List.cons.inj hs
          rcases append_eq_append_cons hs' with ⟨a', rfl, hrest⟩ | ⟨b', hin⟩
          · rw [Scan.after_cons, Scan.after_append] at hc ⊢
            obtain ⟨before, after, rfl, rfl, hdepth⟩ := ih hbet hrest hc
            refine ⟨.quoted (mark :: inside) :: before, after, rfl, rfl, ?_⟩
            simp [hdepth, hdep, Part.weight]
          · exact absurd hc.1 (by simp [Scan.outside_of_staysInside hi hin])
  | @single d s parts hm h ih =>
      have hout : st.outside d = true := by simpa [Scan.between] using hst
      cases a with
      | nil =>
          obtain ⟨rfl, -⟩ := List.cons.inj hs
          have hplain : Part.ofChar d = .plain d :=
            Part.ofChar_eq_plain_iff.mpr ⟨rfl, hc.2.2.1, hc.2.2.2⟩
          exact ⟨[], parts, by rw [hplain]; rfl, rfl, by simp⟩
      | cons e a =>
          obtain ⟨rfl, hs'⟩ := List.cons.inj hs
          have hbet := Scan.between_of_plain (Scan.step_mode_of_plain hout hm) s
          obtain ⟨before, after, rfl, rfl, hdepth⟩ := ih hbet hs' hc
          refine ⟨.ofChar d :: before, after, rfl, by simp [Part.ofChar_text], ?_⟩
          rw [Scan.after_cons, hdepth, Scan.step_depth hout, depthOf_cons, Part.ofChar_weight,
            Int.add_assoc]

/-- Where the text has a plain part, the scan reads a plain character. -/
theorem Decomposes.isPlainAt {s : Text} {before after : List Part} {c : Char}
    (h : Decomposes s (before ++ .plain c :: after)) {st : Scan} (hst : st.between s) :
    (st.after (textOf before)).isPlainAt c ∧
      (st.after (textOf before)).depth = st.depth + depthOf before := by
  induction before generalizing s st with
  | nil =>
      generalize hpart : [] ++ Part.plain c :: after = parts at h
      cases h with
      | nil => simp at hpart
      | quoted => simp at hpart
      | @single d s parts hm h =>
          obtain ⟨hd, -⟩ := List.cons.inj hpart
          obtain ⟨rfl, ho, hc⟩ := Part.ofChar_eq_plain_iff.mp hd.symm
          have hout : st.outside d = true := by simpa [Scan.between] using hst
          exact ⟨⟨hout, hm, ho, hc⟩, by simp⟩
  | cons part before ih =>
      rw [List.cons_append] at h
      cases h with
      | @quoted mark inside rest _ hm hq h =>
          have hout : st.outside mark = true := by simpa [Scan.between] using hst
          obtain ⟨hi, hbet, hdep⟩ := Scan.after_quoted hm hout hq
          obtain ⟨hp, hdepth⟩ := ih h hbet
          rw [textOf_cons, Part.text, List.cons_append, Scan.after_cons, Scan.after_append]
          refine ⟨hp, ?_⟩
          simp [hdepth, hdep, Part.weight]
      | @single d s _ hm h =>
          have hout : st.outside d = true := by simpa [Scan.between] using hst
          have hbet := Scan.between_of_plain (Scan.step_mode_of_plain hout hm) s
          obtain ⟨hp, hdepth⟩ := ih h hbet
          rw [textOf_cons, Part.ofChar_text, List.singleton_append, Scan.after_cons]
          refine ⟨hp, ?_⟩
          rw [hdepth, Scan.step_depth hout, depthOf_cons, Part.ofChar_weight, Int.add_assoc]

end QuerySplice.Sql
