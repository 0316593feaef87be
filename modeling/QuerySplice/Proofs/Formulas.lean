import QuerySplice.Proofs.Connectives

/-!
# Predicates as formulas

A predicate is read as a formula over atoms: `OR` joins products, `AND` joins factors, and a factor
is an atom or a formula in parentheses, with blanks around it. The grammar associates to the left.
A text has one reading at most, since the last `OR` of a sum and the last `AND` of a product are
places that the scan finds.
-/

namespace QuerySplice.Sql

open Text

inductive Formula
  | atom (s : Text)
  | parens (f : Formula)
  | conj (f g : Formula)
  | disj (f g : Formula)
  deriving DecidableEq, Repr

/-- The truth of a formula when the atoms have the truth that `v` gives them. -/
def Formula.holds (v : Text → Bool) : Formula → Bool
  | atom s => v s
  | parens f => f.holds v
  | conj f g => f.holds v && g.holds v
  | disj f g => f.holds v || g.holds v

/-- What a text is read as: factors are parts of products, and products are parts of sums. -/
inductive Rank
  | factor
  | product
  | sum
  deriving DecidableEq, Repr

/-- The text is written for the formula. -/
inductive Written (atoms : Set Text) : Rank → Formula → Text → Prop
  | atom {s gap gap' : Text} (hs : s ∈ atoms) (hg : Blank gap) (hg' : Blank gap') :
      Written atoms .factor (.atom s) (gap ++ s ++ gap')
  | parens {f : Formula} {s gap gap' : Text} (h : Written atoms .sum f s) (hg : Blank gap)
      (hg' : Blank gap') : Written atoms .factor (.parens f) (gap ++ '(' :: (s ++ [')']) ++ gap')
  | ofFactor {f : Formula} {s : Text} (h : Written atoms .factor f s) : Written atoms .product f s
  | conj {f g : Formula} {s t w : Text} (hs : Written atoms .product f s)
      (ht : Written atoms .factor g t) (hw : Spells "AND".toList w) (hb : Apart s t) :
      Written atoms .product (.conj f g) (s ++ (w ++ t))
  | ofProduct {f : Formula} {s : Text} (h : Written atoms .product f s) : Written atoms .sum f s
  | disj {f g : Formula} {s t w : Text} (hs : Written atoms .sum f s)
      (ht : Written atoms .product g t) (hw : Spells "OR".toList w) (hb : Apart s t) :
      Written atoms .sum (.disj f g) (s ++ (w ++ t))

/-- Conditions that are not taken apart: closed texts without connectives and clauses at top level.
None of them is a formula in parentheses. -/
structure Atoms where
  texts : Set Text
  nonempty : ∀ s ∈ texts, s ≠ []
  trimmed : ∀ s ∈ texts, trim s = s
  closed : ∀ s ∈ texts, Closed s
  whole : ∀ s ∈ texts, connectives s = []
  quiet : ∀ s ∈ texts, occurrences s = []
  bare : ∀ s, '(' :: (s ++ [')']) ∈ texts → ∀ f, ¬ Written texts .sum f s

variable {A : Atoms} {r : Rank} {f g : Formula} {s t w gap gap' : Text}

/-! ## Trimming -/

/-- A text that is not changed by trimming has no blank at either end. -/
theorem ends_of_trim_eq (h : trim s = s) :
    nextIs isBlank s = false ∧ nextIs isBlank s.reverse = false := by
  obtain ⟨tail, htail, -⟩ := exists_trimEnd_append (trimStart s)
  have hend : trimEnd (trimStart s) = s := h
  rw [hend] at htail
  have hstart : trimStart s = s := by
    refine (trimStart_suffix s).eq_of_length_le ?_
    rw [htail, List.length_append]
    exact Nat.le_add_right _ _
  rw [hstart, trimEnd] at hend
  refine ⟨?_, ?_⟩
  · rw [← hstart]
    exact nextIs_dropWhile isBlank s
  · have hreverse := congrArg List.reverse hend
    rw [List.reverse_reverse] at hreverse
    rw [← hreverse]
    exact nextIs_dropWhile isBlank s.reverse

/-- Trimming the end takes away the blanks behind a text that has none at its end. -/
theorem trimEnd_append (hg : Blank gap) (hlast : nextIs isBlank s.reverse = false) :
    trimEnd (s ++ gap) = s := by
  have hblank : Blank gap.reverse := fun c hc => hg c (List.mem_reverse.mp hc)
  have hend : (gap.reverse ++ s.reverse).dropWhile isBlank = s.reverse :=
    trimStart_append hblank hlast
  rw [trimEnd, List.reverse_append, hend, List.reverse_reverse]

/-- Trimming takes away the blanks around a text that has none at its ends. -/
theorem trim_of_blanks (hg : Blank gap) (hg' : Blank gap') (hne : s ≠ [])
    (hfirst : nextIs isBlank s = false) (hlast : nextIs isBlank s.reverse = false) :
    trim (gap ++ s ++ gap') = s := by
  have hstart : trimStart (gap ++ (s ++ gap')) = s ++ gap' := by
    refine trimStart_append hg ?_
    rw [nextIs_append_of_ne_nil _ hne]
    exact hfirst
  rw [trim, List.append_assoc, hstart, trimEnd_append hg' hlast]

theorem trimStart_append_of_ne_nil (hne : trimStart s ≠ []) (t : Text) :
    trimStart (s ++ t) = trimStart s ++ t := by
  rw [trimStart_append_eq, if_neg hne]

/-! ## What the scan finds in a formula -/

/-- The connectives that may stand at the top level of a text of this rank. -/
def Rank.connectives : Rank → List Keyword
  | factor => []
  | product => [.and]
  | sum => [.and, .or]

theorem Written.trim_atom (hs : s ∈ A.texts) (hg : Blank gap) (hg' : Blank gap') :
    trim (gap ++ s ++ gap') = s :=
  trim_of_blanks hg hg' (A.nonempty s hs) (ends_of_trim_eq (A.trimmed s hs)).1
    (ends_of_trim_eq (A.trimmed s hs)).2

theorem Written.trim_parens (hg : Blank gap) (hg' : Blank gap') (s : Text) :
    trim (gap ++ '(' :: (s ++ [')']) ++ gap') = '(' :: (s ++ [')']) :=
  trim_of_blanks hg hg' (List.cons_ne_nil _ _) (show isBlank '(' = false by decide) (by
    rw [List.reverse_cons, List.reverse_append]
    exact (show isBlank ')' = false by decide))

/-- A formula is closed and free of clauses, and its top-level connectives are those of its
rank. -/
theorem Written.scan (h : Written A.texts r f s) :
    Closed s ∧ occurrences s = [] ∧ ∀ q ∈ connectives s, q.1 ∈ r.connectives := by
  induction h with
  | @atom s gap gap' hs hg hg' =>
      refine ⟨(A.closed s hs).of_blanks hg hg', ?_, ?_⟩
      · rw [occurrences, wordMarks_landmarks.places_append_blank hg',
          wordMarks_landmarks.places_blank_append hg, show places landmarks s = [] from A.quiet s hs]
        rfl
      · rw [connectives, wordMarks_connectives.places_append_blank hg',
          wordMarks_connectives.places_blank_append hg,
          show places (keywordsAt [.and, .or]) s = [] from A.whole s hs]
        simp
  | @parens f s gap gap' h hg hg' ih =>
      have hcovers := covers_parenthesised ih.1
      refine ⟨ih.1.parenthesised.of_blanks hg hg', ?_, ?_⟩
      · rw [occurrences, wordMarks_landmarks.places_append_blank hg',
          wordMarks_landmarks.places_blank_append hg, places, placesFrom_eq_nil_of_covers hcovers]
        rfl
      · rw [connectives, wordMarks_connectives.places_append_blank hg',
          wordMarks_connectives.places_blank_append hg, places, placesFrom_eq_nil_of_covers hcovers]
        simp
  | ofFactor h ih => exact ⟨ih.1, ih.2.1, fun q hq => by cases ih.2.2 q hq⟩
  | @conj f g s t w hs ht hw hb ihs iht =>
      refine ⟨closed_join (k := .and) (by decide) rfl ihs.1 hw iht.1, ?_, ?_⟩
      · rw [occurrences_join (k := .and) (by decide) rfl ihs.1 hw hb, ihs.2.1, iht.2.1]
        rfl
      · have hnone : connectives t = [] :=
          List.eq_nil_iff_forall_not_mem.mpr fun q hq => by cases iht.2.2 q hq
        rw [connectives_join (k := .and) (by decide) rfl ihs.1 hw hb, hnone]
        intro q hq
        rcases List.mem_append.mp hq with hq | hq
        · exact ihs.2.2 q hq
        · obtain rfl := List.mem_singleton.mp hq
          exact List.mem_singleton_self _
  | ofProduct h ih =>
      refine ⟨ih.1, ih.2.1, fun q hq => ?_⟩
      rw [List.mem_singleton.mp (ih.2.2 q hq)]
      decide
  | @disj f g s t w hs ht hw hb ihs iht =>
      refine ⟨closed_join (k := .or) (by decide) rfl ihs.1 hw iht.1, ?_, ?_⟩
      · rw [occurrences_join (k := .or) (by decide) rfl ihs.1 hw hb, ihs.2.1, iht.2.1]
        rfl
      · rw [connectives_join (k := .or) (by decide) rfl ihs.1 hw hb]
        intro q hq
        rcases List.mem_append.mp hq with hq | hq
        · exact ihs.2.2 q hq
        · rcases List.mem_cons.mp hq with rfl | hq
          · exact List.mem_cons_of_mem _ (List.mem_singleton_self _)
          · obtain ⟨q', hq', rfl⟩ := mem_shift.mp hq
            rw [List.mem_singleton.mp (iht.2.2 q' hq')]
            decide

/-! ## Blanks around a formula -/

theorem Apart.append_left (h : Apart s t) (hne : s ≠ []) (a : Text) : Apart (a ++ s) t := by
  refine ⟨fun d hd => h.before d ?_, h.behind⟩
  rwa [List.getLast?_append_of_ne_nil _ hne] at hd

theorem Apart.append_right (h : Apart s t) (hne : t ≠ []) (b : Text) : Apart s (t ++ b) := by
  refine ⟨h.before, ?_⟩
  rw [nextIs_append_of_ne_nil _ hne]
  exact h.behind

theorem Apart.of_append_right (h : Apart s (t ++ gap)) : Apart s t :=
  ⟨h.before, nextIs_of_append h.behind⟩

theorem Apart.of_suffix {b : Text} (h : Apart s t) (hb : b <:+ s) (hne : b ≠ []) : Apart b t := by
  refine ⟨fun d hd => h.before d ?_, h.behind⟩
  rwa [getLast?_of_suffix hb hne]

theorem Written.ne_nil (h : Written A.texts r f s) : s ≠ [] := by
  induction h with
  | atom hs hg hg' => simp [A.nonempty _ hs]
  | parens h hg hg' ih => simp
  | ofFactor h ih => exact ih
  | conj hs ht hw hb ihs iht => simp [ihs]
  | ofProduct h ih => exact ih
  | disj hs ht hw hb ihs iht => simp [ihs]

/-- Blanks in front of a formula belong to its first factor. -/
theorem Written.blank_append (h : Written A.texts r f s) (hg : Blank gap) :
    Written A.texts r f (gap ++ s) := by
  induction h with
  | @atom s gap₁ gap₂ hs hg₁ hg₂ =>
      rw [List.append_assoc gap₁, ← List.append_assoc gap, ← List.append_assoc]
      exact .atom hs (hg.append hg₁) hg₂
  | @parens f s gap₁ gap₂ h hg₁ hg₂ ih =>
      rw [List.append_assoc gap₁, ← List.append_assoc gap, ← List.append_assoc]
      exact .parens h (hg.append hg₁) hg₂
  | ofFactor h ih => exact .ofFactor ih
  | conj hs ht hw hb ihs iht =>
      rw [← List.append_assoc]
      exact .conj ihs ht hw (hb.append_left hs.ne_nil gap)
  | ofProduct h ih => exact .ofProduct ih
  | disj hs ht hw hb ihs iht =>
      rw [← List.append_assoc]
      exact .disj ihs ht hw (hb.append_left hs.ne_nil gap)

/-- Blanks behind a formula belong to its last factor. -/
theorem Written.append_blank (h : Written A.texts r f s) (hg : Blank gap) :
    Written A.texts r f (s ++ gap) := by
  induction h with
  | @atom s gap₁ gap₂ hs hg₁ hg₂ =>
      rw [List.append_assoc]
      exact .atom hs hg₁ (hg₂.append hg)
  | @parens f s gap₁ gap₂ h hg₁ hg₂ ih =>
      rw [List.append_assoc]
      exact .parens h hg₁ (hg₂.append hg)
  | ofFactor h ih => exact .ofFactor ih
  | @conj f g s t w hs ht hw hb ihs iht =>
      rw [List.append_assoc, List.append_assoc]
      exact .conj hs iht hw (hb.append_right ht.ne_nil gap)
  | ofProduct h ih => exact .ofProduct ih
  | @disj f g s t w hs ht hw hb ihs iht =>
      rw [List.append_assoc, List.append_assoc]
      exact .disj hs iht hw (hb.append_right ht.ne_nil gap)

theorem written_trimStart (h : Written A.texts r f s) : Written A.texts r f (trimStart s) := by
  induction h with
  | @atom s gap₁ gap₂ hs hg₁ hg₂ =>
      have htrim : trimStart (gap₁ ++ (s ++ gap₂)) = s ++ gap₂ := by
        refine trimStart_append hg₁ ?_
        rw [nextIs_append_of_ne_nil _ (A.nonempty s hs)]
        exact (ends_of_trim_eq (A.trimmed s hs)).1
      rw [List.append_assoc, htrim]
      exact .atom hs blank_nil hg₂
  | @parens f s gap₁ gap₂ h hg₁ hg₂ ih =>
      have htrim : trimStart (gap₁ ++ ('(' :: (s ++ [')']) ++ gap₂)) =
          '(' :: (s ++ [')']) ++ gap₂ :=
        trimStart_append hg₁ (show isBlank '(' = false by decide)
      rw [List.append_assoc, htrim]
      exact .parens h blank_nil hg₂
  | ofFactor h ih => exact .ofFactor ih
  | conj hs ht hw hb ihs iht =>
      rw [trimStart_append_of_ne_nil ihs.ne_nil]
      exact .conj ihs ht hw (hb.of_suffix (trimStart_suffix _) ihs.ne_nil)
  | ofProduct h ih => exact .ofProduct ih
  | disj hs ht hw hb ihs iht =>
      rw [trimStart_append_of_ne_nil ihs.ne_nil]
      exact .disj ihs ht hw (hb.of_suffix (trimStart_suffix _) ihs.ne_nil)

theorem written_trimEnd (h : Written A.texts r f s) : Written A.texts r f (trimEnd s) := by
  induction h with
  | @atom s gap₁ gap₂ hs hg₁ hg₂ =>
      have htrim := trimEnd_append hg₂ (ends_of_trim_eq (A.trimmed s hs)).2
      have hne : trimEnd (s ++ gap₂) ≠ [] := by
        rw [htrim]
        exact A.nonempty s hs
      rw [List.append_assoc, trimEnd_append_of_ne_nil hne, htrim, ← List.append_nil (gap₁ ++ s)]
      exact .atom hs hg₁ blank_nil
  | @parens f s gap₁ gap₂ h hg₁ hg₂ ih =>
      have hlast : nextIs isBlank ('(' :: (s ++ [')'])).reverse = false := by
        rw [List.reverse_cons, List.reverse_append]
        exact (show isBlank ')' = false by decide)
      have htrim := trimEnd_append hg₂ hlast
      have hne : trimEnd ('(' :: (s ++ [')']) ++ gap₂) ≠ [] := by
        rw [htrim]
        exact List.cons_ne_nil _ _
      rw [List.append_assoc, trimEnd_append_of_ne_nil hne, htrim,
        ← List.append_nil (gap₁ ++ '(' :: (s ++ [')']))]
      exact .parens h hg₁ blank_nil
  | ofFactor h ih => exact .ofFactor ih
  | @conj f g s t w hs ht hw hb ihs iht =>
      obtain ⟨gap, hsplit, -⟩ := exists_trimEnd_append t
      have hbefore : Apart s (trimEnd t) := (hsplit ▸ hb).of_append_right
      rw [← List.append_assoc, trimEnd_append_of_ne_nil iht.ne_nil, List.append_assoc]
      exact .conj hs iht hw hbefore
  | ofProduct h ih => exact .ofProduct ih
  | @disj f g s t w hs ht hw hb ihs iht =>
      obtain ⟨gap, hsplit, -⟩ := exists_trimEnd_append t
      have hbefore : Apart s (trimEnd t) := (hsplit ▸ hb).of_append_right
      rw [← List.append_assoc, trimEnd_append_of_ne_nil iht.ne_nil, List.append_assoc]
      exact .disj hs iht hw hbefore

/-- Blanks around a formula are no part of it. -/
theorem written_trim (h : Written A.texts r f s) : Written A.texts r f (trim s) :=
  written_trimEnd (written_trimStart h)

/-! ## One reading -/

/-- Two lists that go on behind a last element of a kind are cut at the same place. -/
theorem eq_of_last {p p' : Keyword × Nat} {as as' bs bs' : List (Keyword × Nat)} {k : Keyword}
    (hp : p.1 = k) (hp' : p'.1 = k) (hb : ∀ q ∈ bs, q.1 ≠ k) (hb' : ∀ q ∈ bs', q.1 ≠ k)
    (h : as ++ p :: bs = as' ++ p' :: bs') : p = p' := by
  have hfilter {bs : List (Keyword × Nat)} (hb : ∀ q ∈ bs, q.1 ≠ k) :
      bs.filter (fun q => q.1 == k) = [] := by
    rw [List.filter_eq_nil_iff]
    intro q hq hkey
    exact hb q hq (beq_iff_eq.mp hkey)
  have heq := congrArg (fun l => (l.filter fun q => q.1 == k).getLast?) h
  simpa [hp, hp', hfilter hb, hfilter hb'] using heq

/-- A text with a connective between two parts has these parts only, when its last connective of
the kind is that one. -/
theorem parts_eq_of_join {s' t' w' word : Text} {k : Keyword} (hk : k ∈ [Keyword.and, .or])
    (hword : k.words = [word]) (hs : Closed s) (hs' : Closed s') (hw : Spells word w)
    (hw' : Spells word w') (hb : Apart s t) (hb' : Apart s' t')
    (ht : ∀ q ∈ connectives t, q.1 ≠ k) (ht' : ∀ q ∈ connectives t', q.1 ≠ k)
    (h : s ++ (w ++ t) = s' ++ (w' ++ t')) : s = s' ∧ t = t' := by
  have hshift {n : Nat} {t : Text} (ht : ∀ q ∈ connectives t, q.1 ≠ k) :
      ∀ q ∈ shift n (connectives t), q.1 ≠ k := by
    intro q hq
    obtain ⟨q', hq', rfl⟩ := mem_shift.mp hq
    exact ht q' hq'
  have hlists := congrArg connectives h
  rw [connectives_join hk hword hs hw hb, connectives_join hk hword hs' hw' hb'] at hlists
  have hlast := eq_of_last (k := k) rfl rfl (hshift ht) (hshift ht') hlists
  have hlength : s.length = s'.length := congrArg Prod.snd hlast
  obtain ⟨rfl, hrest⟩ := List.append_inj h hlength
  exact ⟨rfl, (List.append_inj hrest (hw.length_eq.trans hw'.length_eq.symm)).2⟩

/-- The forms of a factor, a product and a sum. -/
theorem Written.cases_of_rank (h : Written A.texts r f s) :
    match r with
    | .factor => (∃ a ∈ A.texts, f = .atom a ∧ trim s = a) ∨
        ∃ g t, Written A.texts .sum g t ∧ f = .parens g ∧ trim s = '(' :: (t ++ [')'])
    | .product => Written A.texts .factor f s ∨ ∃ g g' t t' w, f = .conj g g' ∧
        s = t ++ (w ++ t') ∧ Written A.texts .product g t ∧ Written A.texts .factor g' t' ∧
        Spells "AND".toList w ∧ Apart t t'
    | .sum => Written A.texts .product f s ∨ ∃ g g' t t' w, f = .disj g g' ∧
        s = t ++ (w ++ t') ∧ Written A.texts .sum g t ∧ Written A.texts .product g' t' ∧
        Spells "OR".toList w ∧ Apart t t' := by
  cases h with
  | atom hs hg hg' => exact Or.inl ⟨_, hs, rfl, Written.trim_atom hs hg hg'⟩
  | parens h hg hg' => exact Or.inr ⟨_, _, h, rfl, Written.trim_parens hg hg' _⟩
  | ofFactor h => exact Or.inl h
  | conj hs ht hw hb => exact Or.inr ⟨_, _, _, _, _, rfl, rfl, hs, ht, hw, hb⟩
  | ofProduct h => exact Or.inl h
  | disj hs ht hw hb => exact Or.inr ⟨_, _, _, _, _, rfl, rfl, hs, ht, hw, hb⟩

/-- A product has no top-level `OR`, and a factor no `AND` either. -/
theorem Written.ne_connective {k : Keyword} (h : Written A.texts r f s) (hk : k ∉ r.connectives) :
    ∀ q ∈ connectives s, q.1 ≠ k := by
  rintro q hq rfl
  exact hk (h.scan.2.2 q hq)

/-- A text has one reading of a rank at most. -/
theorem Written.unique (h : Written A.texts r f s) (h' : Written A.texts r g s) : f = g := by
  induction h generalizing g with
  | @atom a gap gap' ha hg hg' =>
      have htrim := Written.trim_atom ha hg hg'
      rcases h'.cases_of_rank with ⟨b, -, rfl, hb⟩ | ⟨f, t, ht, rfl, hparens⟩
      · rw [← htrim, hb]
      · rw [htrim] at hparens
        exact absurd ht (A.bare t (hparens ▸ ha) f)
  | @parens f t gap gap' ht hg hg' ih =>
      have htrim := Written.trim_parens hg hg' t
      rcases h'.cases_of_rank with ⟨b, hb, rfl, hatom⟩ | ⟨f', t', ht', rfl, hparens⟩
      · rw [htrim] at hatom
        exact absurd ht (A.bare t (hatom ▸ hb) f)
      · rw [htrim, List.cons.injEq, List.append_left_inj] at hparens
        rw [ih (hparens.2 ▸ ht')]
  | ofFactor h ih =>
      rcases h'.cases_of_rank with h' | ⟨g, g', t, t', w, -, rfl, ht, -, hw, hb⟩
      · exact ih h'
      · have hand : (Keyword.and, t.length) ∈ connectives (t ++ (w ++ t')) := by
          rw [connectives_join (k := .and) (by decide) rfl ht.scan.1 hw hb]
          simp
        exact absurd rfl (h.ne_connective (k := .and) (by decide) _ hand)
  | @conj f f' s s' w hs hs' hw hb ih ih' =>
      generalize htext : s ++ (w ++ s') = x at h'
      rcases h'.cases_of_rank with h' | ⟨g, g', t, t', w', rfl, rfl, ht, ht', hw', hb'⟩
      · have hand : (Keyword.and, s.length) ∈ connectives x := by
          rw [← htext, connectives_join (k := .and) (by decide) rfl hs.scan.1 hw hb]
          simp
        exact absurd rfl (h'.ne_connective (k := .and) (by decide) _ hand)
      · obtain ⟨rfl, rfl⟩ := parts_eq_of_join (k := .and) (by decide) rfl hs.scan.1 ht.scan.1 hw hw'
          hb hb' (hs'.ne_connective (by decide)) (ht'.ne_connective (by decide)) htext
        rw [ih ht, ih' ht']
  | ofProduct h ih =>
      rcases h'.cases_of_rank with h' | ⟨g, g', t, t', w, -, rfl, ht, -, hw, hb⟩
      · exact ih h'
      · have hor : (Keyword.or, t.length) ∈ connectives (t ++ (w ++ t')) := by
          rw [connectives_join (k := .or) (by decide) rfl ht.scan.1 hw hb]
          simp
        exact absurd rfl (h.ne_connective (k := .or) (by decide) _ hor)
  | @disj f f' s s' w hs hs' hw hb ih ih' =>
      generalize htext : s ++ (w ++ s') = x at h'
      rcases h'.cases_of_rank with h' | ⟨g, g', t, t', w', rfl, rfl, ht, ht', hw', hb'⟩
      · have hor : (Keyword.or, s.length) ∈ connectives x := by
          rw [← htext, connectives_join (k := .or) (by decide) rfl hs.scan.1 hw hb]
          simp
        exact absurd rfl (h'.ne_connective (k := .or) (by decide) _ hor)
      · obtain ⟨rfl, rfl⟩ := parts_eq_of_join (k := .or) (by decide) rfl hs.scan.1 ht.scan.1 hw hw'
          hb hb' (hs'.ne_connective (by decide)) (ht'.ne_connective (by decide)) htext
        rw [ih ht, ih' ht']

end QuerySplice.Sql
