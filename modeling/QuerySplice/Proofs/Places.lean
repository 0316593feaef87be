import QuerySplice.Proofs.Closed
import QuerySplice.Proofs.Seams

/-!
# Places in a query

What may stand at a place of a query is given by its marks: a function from the rest of the query
there to the things it starts with. The places of a query are all its top-level offsets with what
stands there, from left to right. The places of two texts put together are those of the first, read
with the second behind it, and those of the second, read from where the scan of the first ends.
For marks that begin with a word this takes places apart at the blanks between closed texts.
-/

namespace QuerySplice.Sql

open Text

variable {α : Type} {marks : Text → List α} {st st' : Scan} {s t t' : Text}

/-- Places counted from `n` characters further to the left. -/
def shift (n : Nat) (places : List (α × Nat)) : List (α × Nat) :=
  places.map fun p => (p.1, p.2 + n)

/-- All top-level offsets of a text with what stands there. -/
def placesFrom (marks : Text → List α) : Scan → Text → List (α × Nat)
  | _, [] => []
  | st, c :: s =>
    (if st.topLevel c then (marks (c :: s)).map fun a => (a, 0) else []) ++
      shift 1 (placesFrom marks (st.step c) s)

def places (marks : Text → List α) (sql : Text) : List (α × Nat) := placesFrom marks .start sql

@[simp] theorem shift_nil (n : Nat) : shift n ([] : List (α × Nat)) = [] := rfl

@[simp] theorem shift_eq_nil_iff {n : Nat} {ps : List (α × Nat)} : shift n ps = [] ↔ ps = [] :=
  List.map_eq_nil_iff

theorem shift_append (n : Nat) (ps qs : List (α × Nat)) :
    shift n (ps ++ qs) = shift n ps ++ shift n qs := List.map_append

@[simp] theorem shift_zero (ps : List (α × Nat)) : shift 0 ps = ps := List.map_id' ps

theorem shift_shift (m n : Nat) (ps : List (α × Nat)) :
    shift m (shift n ps) = shift (n + m) ps := by
  simp [shift, Nat.add_assoc]

theorem mem_shift {n : Nat} {ps : List (α × Nat)} {p : α × Nat} :
    p ∈ shift n ps ↔ ∃ q ∈ ps, (q.1, q.2 + n) = p := List.mem_map

@[simp] theorem map_fst_shift (n : Nat) (ps : List (α × Nat)) :
    (shift n ps).map Prod.fst = ps.map Prod.fst := by
  rw [shift, List.map_map]
  rfl

/-- The first place of a wanted kind moves along. -/
theorem find?_shift (wanted : α → Bool) (n : Nat) (ps : List (α × Nat)) :
    ((shift n ps).find? fun p => wanted p.1) =
      (ps.find? fun p => wanted p.1).map fun p => (p.1, p.2 + n) := by
  rw [shift, List.find?_map]
  rfl

/-- The places of two texts put together. -/
theorem placesFrom_append (marks : Text → List α) (st : Scan) (s t : Text) :
    placesFrom marks st (s ++ t) =
      placesFrom (fun b => marks (b ++ t)) st s ++
        shift s.length (placesFrom marks (st.after s) t) := by
  induction s generalizing st with
  | nil => simp [placesFrom]
  | cons c s ih =>
      rw [List.cons_append, placesFrom, placesFrom, ih, shift_append, shift_shift,
        List.append_assoc]
      rfl

/-- The next scan depends on the mode and the depth of the last one. -/
theorem Scan.step_congr (hmode : st.mode = st'.mode) (hdepth : st.depth = st'.depth) (c : Char) :
    st.step c = st'.step c := by
  have hout : st.outside c = st'.outside c := by simp only [Scan.outside, hmode]
  simp only [Scan.step, Scan.modeAfter, hout, hmode, hdepth]

/-- Where nothing can stand at the first character, it does not matter whether a word may start
there. -/
theorem placesFrom_congr (hmarks : marks s = []) (hmode : st.mode = st'.mode)
    (hdepth : st.depth = st'.depth) : placesFrom marks st s = placesFrom marks st' s := by
  cases s with
  | nil => rfl
  | cons c s =>
      rw [placesFrom, placesFrom, hmarks, Scan.step_congr hmode hdepth]
      simp

/-- The places of a text depend on the marks of its ends only. -/
theorem placesFrom_congr_of_suffix {marks' : Text → List α}
    (h : ∀ b, b <:+ s → b ≠ [] → marks b = marks' b) (st : Scan) :
    placesFrom marks st s = placesFrom marks' st s := by
  induction s generalizing st with
  | nil => rfl
  | cons c s ih =>
      have hhere : marks (c :: s) = marks' (c :: s) := h _ List.suffix_rfl (by simp)
      have hlater := ih (fun b hb => h b (hb.trans (List.suffix_cons c s))) (st.step c)
      rw [placesFrom, placesFrom, hhere, hlater]

/-- What stands at an offset: there the scan reads a top-level character, and the rest is marked. -/
theorem mem_placesFrom_iff {a : α} {p : Nat} :
    (a, p) ∈ placesFrom marks st s ↔
      ∃ c b d, s = c ++ d :: b ∧ c.length = p ∧ (st.after c).topLevel d = true ∧
        a ∈ marks (d :: b) := by
  induction s generalizing st p with
  | nil => simp [placesFrom]
  | cons e s ih =>
      rw [placesFrom, List.mem_append]
      constructor
      · rintro (h | h)
        · split at h
          · next htop =>
              obtain ⟨a', ha, heq⟩ := List.mem_map.mp h
              obtain ⟨rfl, rfl⟩ := Prod.mk.inj heq
              exact ⟨[], s, e, rfl, rfl, htop, ha⟩
          · cases h
        · obtain ⟨⟨a', q⟩, hq, heq⟩ := mem_shift.mp h
          obtain ⟨rfl, rfl⟩ := Prod.mk.inj heq
          obtain ⟨c, b, d, rfl, rfl, htop, ha⟩ := ih.mp hq
          exact ⟨e :: c, b, d, rfl, rfl, htop, ha⟩
      · rintro ⟨c, b, d, hs, rfl, htop, ha⟩
        cases c with
        | nil =>
            obtain ⟨rfl, rfl⟩ := List.cons.inj hs
            refine Or.inl ?_
            rw [if_pos (show st.topLevel e = true from htop)]
            exact List.mem_map_of_mem ha
        | cons f c =>
            obtain ⟨rfl, rfl⟩ := List.cons.inj hs
            refine Or.inr (mem_shift.mpr ⟨(a, c.length), ih.mpr ⟨c, b, d, rfl, rfl, htop, ha⟩, ?_⟩)
            rfl

theorem mem_marks_of_mem_placesFrom {a : α} (h : (a, 0) ∈ placesFrom marks st s) :
    a ∈ marks s := by
  obtain ⟨c, b, d, rfl, hc, -, ha⟩ := mem_placesFrom_iff.mp h
  obtain rfl := List.length_eq_zero_iff.mp hc
  exact ha

theorem lt_length_of_mem_placesFrom {p : α × Nat} (h : p ∈ placesFrom marks st s) :
    p.2 < s.length := by
  obtain ⟨c, b, d, rfl, hc, -, -⟩ := mem_placesFrom_iff.mp h
  rw [← hc]
  simp

/-- The finder finds the first place of a wanted kind. -/
theorem firstFrom_eq_find? {accepts : Text → Bool} (wanted : α → Bool)
    (h : ∀ s, accepts s = (marks s).any wanted) (st : Scan) (s : Text) :
    firstFrom accepts st s = ((placesFrom marks st s).find? fun p => wanted p.1).map (·.2) := by
  induction s generalizing st with
  | nil => rfl
  | cons c s ih =>
      rw [firstFrom, placesFrom, List.find?_append, find?_shift, ih]
      by_cases htop : st.topLevel c = true
      · have hhere : (((marks (c :: s)).map fun a => (a, 0)).find? fun p => wanted p.1) =
            ((marks (c :: s)).find? wanted).map fun a => (a, 0) := List.find?_map ..
        rw [htop, Bool.true_and, if_pos rfl, hhere]
        cases hfind : (marks (c :: s)).find? wanted with
        | none =>
            have hno : accepts (c :: s) = false := by
              rw [h, List.any_eq_false]
              exact List.find?_eq_none.mp hfind
            simp [hno, Option.map_map, Function.comp_def]
        | some a =>
            have hyes : accepts (c :: s) = true := by
              rw [h, List.any_eq_true]
              exact ⟨a, List.mem_of_find?_eq_some hfind, List.find?_some hfind⟩
            simp [hyes]
      · simp [htop, Option.map_map, Function.comp_def]

/-! ## Covered texts -/

/-- No character of the text is top-level. -/
def Scan.Covers (st : Scan) (s : Text) : Prop :=
  ∀ a c b, s = a ++ c :: b → (st.after a).topLevel c = false

theorem placesFrom_eq_nil_of_suffix (h : ∀ b, b <:+ s → b ≠ [] → marks b = []) (st : Scan) :
    placesFrom marks st s = [] := by
  induction s generalizing st with
  | nil => rfl
  | cons c s ih =>
      have hhere : marks (c :: s) = [] := h _ List.suffix_rfl (by simp)
      have hlater := ih (fun b hb => h b (hb.trans (List.suffix_cons c s))) (st.step c)
      rw [placesFrom, hhere, hlater]
      simp

theorem placesFrom_eq_nil_of_covers (h : st.Covers s) : placesFrom marks st s = [] := by
  induction s generalizing st with
  | nil => rfl
  | cons c s ih =>
      have hhead : st.topLevel c = false := h [] c s rfl
      have htail : (st.step c).Covers s := fun a d b hs => h (c :: a) d b (by rw [hs]; rfl)
      rw [placesFrom, hhead, ih htail]
      simp

theorem Scan.covers_quotedWith {mark : Char} (hm : isQuoteMark mark = true) (hs : '\\' ∉ s)
    (hst : st.mode = .plain) : st.Covers (quotedWith mark s) := by
  intro a c b h
  cases a with
  | nil =>
      obtain ⟨rfl, -⟩ := List.cons.inj h
      simp [Scan.topLevel, hm]
  | cons d a =>
      obtain ⟨rfl, hrest⟩ := List.cons.inj h
      have hin := Scan.outside_of_staysInside (Scan.after_quotedWith hm hs hst).1 hrest
      simp [Scan.topLevel, hin]

theorem covers_parenthesised (hs : Closed s) : Scan.start.Covers ('(' :: (s ++ [')'])) := by
  have hpass : (Scan.start.step '(').Passes s := (passes_iff_closed rfl).mpr hs
  intro a c b h
  cases a with
  | nil =>
      obtain ⟨rfl, -⟩ := List.cons.inj h
      rfl
  | cons d a =>
      obtain ⟨rfl, hrest⟩ := List.cons.inj h
      rcases append_eq_append_cons hrest with ⟨a', rfl, hlast⟩ | ⟨b', hin⟩
      · cases a' with
        | nil =>
            obtain ⟨rfl, -⟩ := List.cons.inj hlast
            simp [Scan.topLevel]
        | cons e a' => simp at hlast
      · have habove := hpass.above a ⟨c :: b', hin.symm⟩
        have hdepth : ((Scan.start.step '(').after a).depth ≠ 0 := by
          intro hzero
          rw [hzero] at habove
          exact absurd habove (by decide)
        simp [Scan.topLevel, hdepth]

/-! ## Marks that begin with a word -/

/-- Whatever is marked begins with one of the words, and is marked the same in front of two texts
that cannot be told apart from there. -/
structure WordMarks (words : List Text) (marks : Text → List α) : Prop where
  isWord : ∀ word ∈ words, IsWord word
  reads : ∀ s, marks s ≠ [] → ∃ word ∈ words, readWord word s ≠ none
  cut : ∀ {s t t'}, Alike s t t' → ∀ {b}, b <:+ s → b ≠ [] → marks (b ++ t) = marks (b ++ t')

/-- Whether the word and each of its ends differs from all of the words. -/
def foreign (words : List Text) : Text → Bool
  | [] => true
  | c :: v => words.all (differ (c :: v)) && foreign words v

namespace WordMarks

variable {words : List Text} (hm : WordMarks words marks)

include hm

/-- Nothing is marked where no letter stands. -/
theorem eq_nil_of_not_letter (hs : nextIs isLetterAnyCase s = false) : marks s = [] := by
  by_contra hne
  obtain ⟨word, hword, hread⟩ := hm.reads s hne
  obtain ⟨rest, hrest⟩ := Option.ne_none_iff_exists'.mp hread
  obtain ⟨t, rfl, ht⟩ := readWord_eq_some_iff.mp hrest
  obtain ⟨c, t, rfl, hc⟩ := ht.exists_cons (hm.isWord word hword)
  simp [hc] at hs

/-- A fresh text behind a blank leaves the marks of a text as they are. -/
theorem seam (ht : Fresh t) (s : Text) : marks (s ++ ' ' :: t) = marks s := by
  by_cases hne : s = []
  · subst hne
    have hblank : nextIs isLetterAnyCase (' ' :: t) = false :=
      show isLetterAnyCase ' ' = false by decide
    exact (hm.eq_nil_of_not_letter hblank).trans (hm.eq_nil_of_not_letter (nextIs_nil _)).symm
  · simpa using hm.cut (alike_seam ht s) List.suffix_rfl hne

/-- The places in the first of two texts are the same in front of texts that cannot be told
apart. -/
theorem placesFrom_cut (h : Alike s t t') (st : Scan) :
    placesFrom (fun b => marks (b ++ t)) st s = placesFrom (fun b => marks (b ++ t')) st s :=
  placesFrom_congr_of_suffix (fun _ hb hne => hm.cut h hb hne) st

theorem eq_nil_of_foreign {word w : Text} (hw : ∀ c ∈ word, c.isAlpha = true)
    (hd : words.all (differ word) = true) (hs : Spells word w) (rest : Text) :
    marks (w ++ rest) = [] := by
  by_contra hne
  obtain ⟨v, hv, hread⟩ := hm.reads _ hne
  have hdiffer : differ word v = true := List.all_eq_true.mp hd v hv
  exact hread
    (readWord_eq_none_of_differ (ascii_of_isAlpha hw) (hm.isWord v hv).ascii hdiffer hs rest)

/-- Nothing stands in a foreign word, whatever follows it. -/
theorem placesFrom_foreign {word w : Text} (hw : ∀ c ∈ word, c.isAlpha = true)
    (hf : foreign words word = true) (hs : Spells word w) (st : Scan) (rest : Text) :
    placesFrom (fun b => marks (b ++ rest)) st w = [] := by
  induction word generalizing w st with
  | nil =>
      cases hs
      rfl
  | cons d word ih =>
      rw [foreign, Bool.and_eq_true] at hf
      have hnone := hm.eq_nil_of_foreign hw hf.1 hs rest
      cases hs with
      | cons hc htail =>
          rw [placesFrom, hnone, ih (fun e he => hw e (by simp [he])) hf.2 htail]
          simp

/-- Nothing stands in a text without letters, whatever follows it. -/
theorem placesFrom_of_not_letters (hs : s.any isLetterAnyCase = false) (st : Scan)
    (rest : Text) : placesFrom (fun b => marks (b ++ rest)) st s = [] := by
  induction s generalizing st with
  | nil => rfl
  | cons c s ih =>
      rw [List.any_cons, Bool.or_eq_false_iff] at hs
      have hnone : marks (c :: s ++ rest) = [] := hm.eq_nil_of_not_letter hs.1
      rw [placesFrom, hnone, ih hs.2]
      simp

/-- A text without letters at the end, which looks like the end itself, adds no places. -/
theorem places_append_of_not_letters (h : Alike s t []) (ht : t.any isLetterAnyCase = false) :
    places marks (s ++ t) = places marks s := by
  have hnone := hm.placesFrom_of_not_letters ht (Scan.start.after s) []
  simp only [List.append_nil] at hnone
  rw [places, placesFrom_append, hm.placesFrom_cut h, hnone]
  simp [places]

theorem places_of_not_letters (hs : s.any isLetterAnyCase = false) : places marks s = [] := by
  have hnone := hm.placesFrom_of_not_letters hs .start []
  simp only [List.append_nil] at hnone
  exact hnone

/-- Where a text that starts with no letter is reached plainly at depth zero, its places are those
that it has by itself. -/
theorem placesFrom_eq_places (ht : nextIs isLetterAnyCase t = false) (hmode : st.mode = .plain)
    (hdepth : st.depth = 0) : placesFrom marks st t = places marks t :=
  placesFrom_congr (hm.eq_nil_of_not_letter ht) hmode hdepth

theorem places_blank_cons (t : Text) : places marks (' ' :: t) = shift 1 (places marks t) := by
  have hblank : marks (' ' :: t) = [] :=
    hm.eq_nil_of_not_letter (show isLetterAnyCase ' ' = false by decide)
  rw [places, placesFrom, hblank]
  simp
  rfl

/-- Behind a foreign word the places are those of what follows. -/
theorem places_foreign_append {word w : Text} (hw : IsWord word)
    (hf : foreign words word = true) (hs : Spells word w)
    (ht : nextIs isLetterAnyCase t = false) :
    places marks (w ++ t) = shift w.length (places marks t) := by
  obtain ⟨hmode, hdepth⟩ := (hs.plainText hw).after (show Scan.start.mode = .plain from rfl)
  rw [places, placesFrom_append, hm.placesFrom_foreign hw.2 hf hs, List.nil_append,
    hm.placesFrom_eq_places ht hmode hdepth]

/-- A word whose proper ends are foreign has a place at its start only. -/
theorem places_word_append {word w : Text} (hw : IsWord word)
    (hf : foreign words word.tail = true) (hs : Spells word w)
    (ht : nextIs isLetterAnyCase t = false) :
    places marks (w ++ t) =
      (marks (w ++ t)).map (fun a => (a, 0)) ++ shift w.length (places marks t) := by
  have hplain := hs.plainText hw
  obtain ⟨hmode, hdepth⟩ := hplain.after (show Scan.start.mode = .plain from rfl)
  rw [places, placesFrom_append, hm.placesFrom_eq_places ht hmode hdepth]
  cases hs with
  | nil => exact absurd rfl hw.1
  | @cons _ c word v hc htail =>
      obtain ⟨hmark, hweight⟩ := hplain c (by simp)
      have hparens : c ≠ '(' ∧ c ≠ ')' := by
        constructor <;> rintro rfl <;> exact absurd hweight (by decide)
      have htop : Scan.start.topLevel c = true := by
        simp [Scan.topLevel, Scan.outside, Scan.start, hmark, hparens]
      have hletters : ∀ e ∈ word, e.isAlpha = true := fun e he => hw.2 e (List.mem_cons_of_mem _ he)
      rw [placesFrom, htop, hm.placesFrom_foreign hletters hf htail]
      simp

/-- Places behind a level text and a blank are those of what follows. -/
theorem places_append (hs : Level s) (t : Text) :
    places marks (s ++ ' ' :: t) =
      placesFrom (fun b => marks (b ++ ' ' :: t)) .start s ++
        shift (s.length + 1) (places marks t) := by
  have hblank : marks (' ' :: t) = [] :=
    hm.eq_nil_of_not_letter (show isLetterAnyCase ' ' = false by decide)
  rw [places, placesFrom_append, placesFrom, hblank, hs.step_blank]
  simp [shift_shift, Nat.add_comm, places]

/-- The places of two texts with a blank between them, if the first is level and cannot be read on
into the second. -/
theorem places_seam (hs : Level s) (ht : Fresh t) :
    places marks (s ++ ' ' :: t) = places marks s ++ shift (s.length + 1) (places marks t) := by
  rw [hm.places_append hs]
  simp only [hm.seam ht]
  rfl

/-- The places behind a closed text without letters and a blank are those of what follows. -/
theorem places_not_letters_append (hc : Closed s) (hs : s.any isLetterAnyCase = false)
    (t : Text) : places marks (s ++ ' ' :: t) = shift (s.length + 1) (places marks t) := by
  rw [hm.places_append hc.level, hm.placesFrom_of_not_letters hs, List.nil_append]

/-- The places behind a name or literal and a blank are those of what follows. -/
theorem places_quotedWith_append {mark : Char} (hmark : isQuoteMark mark = true) (hs : '\\' ∉ s)
    (t : Text) :
    places marks (quotedWith mark s ++ ' ' :: t) =
      shift ((quotedWith mark s).length + 1) (places marks t) := by
  rw [hm.places_append (closed_quotedWith hmark hs).level,
    placesFrom_eq_nil_of_covers (Scan.covers_quotedWith hmark hs rfl), List.nil_append]

end WordMarks

end QuerySplice.Sql
