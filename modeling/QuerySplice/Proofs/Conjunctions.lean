import QuerySplice.Proofs.Formulas

/-!
# Joining a condition to a predicate

The condition is written in front of the predicate with an `AND` between them. A predicate that is a
sum is put in parentheses first, so all of it is bound. A condition that is a sum stands as it is:
the `AND` binds its last product only, and the result is true already when what stands in front of
its last `OR` is. For any other condition the result is true exactly when both are.
-/

namespace QuerySplice.Sql

open Text

variable {A : Atoms} {r : Rank} {f g : Formula} {s t w a body condition sql gap gap' : Text}

/-! ## Joined formulas -/

namespace Formula

/-- A sum in parentheses, and any other formula as it is. -/
def grouped : Formula → Formula
  | disj a b => parens (disj a b)
  | f => f

/-- The product of `g` and the factors of the second formula. -/
def attach (g : Formula) : Formula → Formula
  | conj a b => conj (attach g a) b
  | f => conj g f

/-- What is read when `g` and an `AND` stand in front of a formula that has been grouped. -/
def conjoin (f : Formula) : Formula → Formula
  | disj a b => disj a (b.attach f.grouped)
  | g => g.attach f.grouped

/-- What is not bound by an `AND` behind the formula is true: the part in front of its last `OR`. -/
def unbound (v : Text → Bool) : Formula → Bool
  | disj a _ => a.holds v
  | _ => false

theorem holds_grouped (f : Formula) (v : Text → Bool) : f.grouped.holds v = f.holds v := by
  cases f <;> rfl

theorem holds_attach (g f : Formula) (v : Text → Bool) :
    (g.attach f).holds v = (g.holds v && f.holds v) := by
  induction f with
  | atom s => rfl
  | parens f => rfl
  | conj a b iha ihb => rw [attach, holds, iha, holds, Bool.and_assoc]
  | disj a b => rfl

/-- The truth of the joined formula: that of both, or of what is not bound. -/
theorem holds_conjoin (f g : Formula) (v : Text → Bool) :
    (f.conjoin g).holds v = (g.unbound v || (g.holds v && f.holds v)) := by
  have hattach := holds_attach g f.grouped v
  rw [holds_grouped] at hattach
  cases g with
  | atom s => simpa only [conjoin, unbound, Bool.false_or] using hattach
  | parens g => simpa only [conjoin, unbound, Bool.false_or] using hattach
  | conj a b => simpa only [conjoin, unbound, Bool.false_or] using hattach
  | disj a b =>
      rw [conjoin, holds, holds_attach, holds_grouped, unbound, holds]
      cases a.holds v <;> simp

end Formula

/-! ## Joined texts -/

/-- A factor is an atom or in parentheses, and a product is no sum. -/
theorem Written.not_disj (h : Written A.texts .product f s) (a b : Formula) : f ≠ .disj a b := by
  rintro rfl
  rcases h.cases_of_rank with h | ⟨g, g', t, t', w, hf, -⟩
  · rcases h.cases_of_rank with ⟨_, -, hf, -⟩ | ⟨_, _, -, hf, -⟩
    · cases hf
    · cases hf
  · cases hf

theorem Written.factor_of_product (h : Written A.texts .product f s)
    (hf : ∀ a b, f ≠ .conj a b) : Written A.texts .factor f s := by
  rcases h.cases_of_rank with h | ⟨g, g', t, t', w, rfl, -⟩
  · exact h
  · exact absurd rfl (hf g g')

/-- An `AND` between two products makes one product of them. -/
theorem Written.attach (hg : Written A.texts .product g s) (hf : Written A.texts .product f t)
    (hw : Spells "AND".toList w) (hb : Apart s t) :
    Written A.texts .product (g.attach f) (s ++ (w ++ t)) := by
  induction f generalizing t with
  | atom a => exact .conj hg (hf.factor_of_product (by simp)) hw hb
  | parens f => exact .conj hg (hf.factor_of_product (by simp)) hw hb
  | disj a b => exact absurd rfl (hf.not_disj a b)
  | conj a b iha ihb =>
      rcases hf.cases_of_rank with hf | ⟨_, _, t₁, t₂, w', hconj, rfl, ht₁, ht₂, hw', hb'⟩
      · rcases hf.cases_of_rank with ⟨_, -, hf, -⟩ | ⟨_, _, -, hf, -⟩
        · cases hf
        · cases hf
      · obtain ⟨rfl, rfl⟩ := Formula.conj.inj hconj
        have hfirst := iha ht₁ hb.of_append_right
        have hlast : Apart (s ++ (w ++ t₁)) t₂ := by
          rw [← List.append_assoc]
          exact hb'.append_left ht₁.ne_nil (s ++ w)
        have hsplit : s ++ (w ++ (t₁ ++ (w' ++ t₂))) = (s ++ (w ++ t₁)) ++ (w' ++ t₂) := by
          simp only [List.append_assoc]
        rw [hsplit]
        exact .conj hfirst ht₂ hw' hlast

/-- A text that is read as a formula has a top-level `OR` when the formula is a sum of two. -/
theorem Written.or_position?_isNone (h : Written A.texts .sum f s) :
    (Keyword.or.position? s).isNone = true ↔ Written A.texts .product f s := by
  rw [Keyword.position?_isNone_iff (by decide : Keyword.or ∈ [Keyword.and, .or]) rfl]
  constructor
  · intro hnone
    rcases h.cases_of_rank with h | ⟨g, g', t, t', w, -, rfl, ht, -, hw, hb⟩
    · exact h
    · have hor : (Keyword.or, t.length) ∈ connectives (t ++ (w ++ t')) := by
        rw [connectives_join (k := .or) (by decide) rfl ht.scan.1 hw hb]
        simp
      exact absurd rfl (hnone _ hor)
  · intro hproduct
    exact hproduct.ne_connective (by decide)

/-- What stands behind the `AND` that is written in front of a predicate is a product. -/
theorem Written.grouped (h : Written A.texts .sum f s)
    (hs : nextIs (fun c => isNameCharAnyCase c || c == '.') s = false) :
    ∃ t, conjunct s = "AND".toList ++ t ∧ Written A.texts .product f.grouped t ∧
      nextIs (fun c => isNameCharAnyCase c || c == '.') t = false := by
  rw [conjunct]
  split
  · next hnone =>
      have hproduct := h.or_position?_isNone.mp hnone
      have hgrouped : f.grouped = f := by
        cases f with
        | disj a b => exact absurd rfl (hproduct.not_disj a b)
        | atom a => rfl
        | parens f => rfl
        | conj a b => rfl
      exact ⟨s, rfl, by rwa [hgrouped], hs⟩
  · next hsome =>
      rcases h.cases_of_rank with hproduct | ⟨a, b, _, _, _, rfl, -⟩
      · exact absurd (h.or_position?_isNone.mpr hproduct) hsome
      · have hparens : Written A.texts .factor (.parens (.disj a b))
            ([' '] ++ '(' :: (trim s ++ [')']) ++ []) :=
          .parens (written_trim h) gap_singleton.2 blank_nil
        rw [List.append_nil] at hparens
        exact ⟨' ' :: '(' :: (trim s ++ [')']), rfl, .ofFactor hparens, nextIs_name_blank _⟩

/-- A condition and a predicate with an `AND` between them are read as the joined formula. -/
theorem Written.conjoin (hf : Written A.texts .sum f t) (hg : Written A.texts .sum g s)
    (ht : nextIs (fun c => isNameCharAnyCase c || c == '.') t = false) :
    Written A.texts .sum (f.conjoin g) (s ++ ' ' :: conjunct t) := by
  obtain ⟨x, hconjunct, hx, hnext⟩ := hf.grouped ht
  have hapart (s : Text) : Apart (s ++ [' ']) x := by
    refine ⟨fun d hd => ?_, hnext⟩
    rw [List.getLast?_append_of_ne_nil _ (List.cons_ne_nil _ _)] at hd
    obtain rfl := Option.some.inj hd
    decide
  have hspells : Spells "AND".toList "AND".toList := spells_self _
  rw [hconjunct, List.append_cons]
  rcases hg.cases_of_rank with hg | ⟨a, b, s₁, s₂, w, rfl, rfl, hs₁, hs₂, hw, hb⟩
  · have hconjoin : f.conjoin g = g.attach f.grouped := by
      cases g with
      | disj a b => exact absurd rfl (hg.not_disj a b)
      | atom a => rfl
      | parens g => rfl
      | conj a b => rfl
    rw [hconjoin]
    exact .ofProduct ((hg.append_blank gap_singleton.2).attach hx hspells (hapart s))
  · have hlast := (hs₂.append_blank gap_singleton.2).attach hx hspells (hapart s₂)
    have hsplit : s₁ ++ (w ++ s₂) ++ [' '] ++ ("AND".toList ++ x) =
        s₁ ++ (w ++ ((s₂ ++ [' ']) ++ ("AND".toList ++ x))) := by
      simp only [List.append_assoc]
    rw [hsplit]
    refine .disj hs₁ hlast hw ?_
    rw [List.append_assoc]
    exact hb.append_right hs₂.ne_nil _

/-! ## Where the predicate ends -/

theorem splitPredicate_append (s : Text) : (splitPredicate s).1 ++ (splitPredicate s).2 = s := by
  rw [splitPredicate]
  split
  · exact List.take_append_drop _ s
  · exact List.append_nil s

/-- Behind a text that adds no landmark the predicate ends where it ended. -/
theorem splitPredicate_append_left {x : Text}
    (h : occurrences (x ++ s) = shift x.length (occurrences s)) :
    splitPredicate (x ++ s) = (x ++ (splitPredicate s).1, (splitPredicate s).2) := by
  rw [splitPredicate, splitPredicate, firstPosition?_eq_find?, firstPosition?_eq_find?, h,
    find?_shift (fun l => (Clause.after .filter).contains l)]
  cases hfind : (occurrences s).find? fun p => (Clause.after .filter).contains p.1 with
  | none => simp
  | some p =>
      simp only [Option.map_some, Nat.add_comm p.2, List.take_length_add_append,
        List.drop_length_add_append]

/-- What follows the predicate is nothing, or it begins with a landmark and has no predicate. -/
theorem splitPredicate_tail (s : Text) :
    (splitPredicate s).2 = [] ∨ Headed (splitPredicate s).2 ∧
      splitPredicate (splitPredicate s).2 = ([], (splitPredicate s).2) := by
  rw [splitPredicate]
  cases hfirst : firstPosition? (Clause.followingKeywords .filter) s with
  | none => exact Or.inl rfl
  | some p =>
      obtain ⟨u, v, l, rfl, rfl, -, hl, hstarts⟩ := firstPosition?_eq_some hfirst
      obtain ⟨ps, hps⟩ := Landmark.occurrences_eq_cons hstarts
      have hzero : firstPosition? (Clause.followingKeywords .filter) v = some 0 := by
        rw [firstPosition?_eq_find?, hps,
          List.find?_cons_of_pos (by exact List.contains_iff_mem.mpr hl)]
        rfl
      refine Or.inr ?_
      simp only [List.drop_left, splitPredicate, hzero]
      exact ⟨Landmark.headed hstarts, rfl⟩

/-- The predicate of a text without landmarks and what follows it behind a blank. -/
theorem splitPredicate_quiet {x : Text} (hx : Level x) (hquiet : occurrences x = [])
    (ht : Headed t) (hsplit : splitPredicate t = ([], t)) :
    splitPredicate (x ++ ' ' :: t) = (x ++ [' '], t) := by
  have hseam := wordMarks_landmarks.places_seam hx ht.fresh
  rw [show places landmarks x = [] from hquiet, List.nil_append] at hseam
  rw [List.append_cons] at hseam ⊢
  rw [splitPredicate_append_left (by rwa [List.length_append]), hsplit, List.append_nil]

theorem joinCondition_of_isNone
    (h : (Keyword.or.position? (splitPredicate s).1).isNone = true) (condition : Text) :
    joinCondition condition s = (' ' :: (condition ++ ' ' :: "AND".toList)) ++ s := by
  simp only [joinCondition, h, if_true]
  simp

theorem joinCondition_of_or (h : ¬ (Keyword.or.position? (splitPredicate s).1).isNone = true)
    (condition : Text) :
    joinCondition condition s = ' ' :: (condition ++ ' ' :: conjunct (splitPredicate s).1) ++
      if (splitPredicate s).2 = [] then [] else ' ' :: (splitPredicate s).2 := by
  simp only [joinCondition, conjunct, if_neg h, List.isEmpty_iff]
  split
  · simp
  · simp

/-- The predicate of the text with a condition is the condition and the old predicate, and maybe a
blank. -/
theorem splitPredicate_joinCondition (hf : Written A.texts .sum f (splitPredicate s).1)
    (hg : Written A.texts .sum g condition)
    (hs : nextIs (fun c => isNameCharAnyCase c || c == '.') s = false) :
    ∃ gap, Blank gap ∧ (splitPredicate (joinCondition condition s)).1 =
      ' ' :: (condition ++ ' ' :: conjunct (splitPredicate s).1) ++ gap := by
  obtain ⟨hclosed, hquiet, -⟩ := hg.scan
  have hpredicate : nextIs (fun c => isNameCharAnyCase c || c == '.') (splitPredicate s).1 =
      false := by
    rw [← splitPredicate_append s] at hs
    exact nextIs_of_append hs
  by_cases hnone : (Keyword.or.position? (splitPredicate s).1).isNone = true
  · have hfresh : Fresh ("AND".toList ++ s) :=
      fresh_of_spells (by decide) (by decide) (by decide) (spells_self _) s
    have hoccurrences : occurrences ((' ' :: (condition ++ ' ' :: "AND".toList)) ++ s) =
        shift (' ' :: (condition ++ ' ' :: "AND".toList)).length (occurrences s) := by
      have hand : occurrences ("AND".toList ++ s) = shift 3 (occurrences s) :=
        occurrences_connective_append (by decide) (spells_self _) (nextIs_letter_of_name hs)
      have hseam := wordMarks_landmarks.places_seam hclosed.level hfresh
      rw [show places landmarks condition = [] from hquiet, List.nil_append] at hseam
      calc
        occurrences ((' ' :: (condition ++ ' ' :: "AND".toList)) ++ s)
            = occurrences (' ' :: (condition ++ ' ' :: ("AND".toList ++ s))) := by simp
        _ = shift 1 (shift (condition.length + 1) (occurrences ("AND".toList ++ s))) := by
          rw [occurrences, wordMarks_landmarks.places_blank_cons, hseam]
          rfl
        _ = shift (' ' :: (condition ++ ' ' :: "AND".toList)).length (occurrences s) := by
          rw [hand, shift_shift, shift_shift]
          congr 1
          simp
          omega
    refine ⟨[], blank_nil, ?_⟩
    rw [joinCondition_of_isNone hnone, splitPredicate_append_left hoccurrences, conjunct,
      if_pos hnone]
    simp
  · have hwritten := (hf.conjoin hg hpredicate).blank_append gap_singleton.2
    obtain ⟨hlevel, hempty, -⟩ := hwritten.scan
    generalize hjoined : ' ' :: (condition ++ ' ' :: conjunct (splitPredicate s).1) = x
    rw [List.singleton_append, hjoined] at hlevel hempty
    rw [joinCondition_of_or hnone, hjoined]
    rcases splitPredicate_tail s with htail | ⟨hheaded, htail⟩
    · have hnothing : splitPredicate (x ++ []) = (x ++ [], []) := by
        rw [splitPredicate_append_left (by rw [List.append_nil, hempty]; rfl)]
        rfl
      refine ⟨[], blank_nil, ?_⟩
      rw [if_pos htail, hnothing]
    · obtain ⟨c, r, hcons, -⟩ := hheaded.exists_cons
      have hne : (splitPredicate s).2 ≠ [] := by
        rw [hcons]
        exact List.cons_ne_nil c r
      refine ⟨[' '], gap_singleton.2, ?_⟩
      rw [if_neg hne, splitPredicate_quiet hlevel.level hempty hheaded htail]

/-! ## The condition of a query -/

/-- What the `WHERE` of a query asks for: the text behind its word up to the next clause. -/
def predicate? (sql : Text) : Option Text :=
  (Clause.filter.position? sql).map fun p =>
    (splitPredicate (sql.drop (p + Clause.filter.keyword.length (sql.drop p)))).1

/-- The first filter of a query stands where a word may start. -/
theorem filter_position?_eq_some {p : Nat} (h : Clause.filter.position? sql = some p) :
    ∃ a w s, sql = a ++ (w ++ s) ∧ a.length = p ∧ (Scan.start.after a).Ready ∧
      Spells "WHERE".toList w ∧ nextIs (fun c => isNameCharAnyCase c || c == '.') s = false := by
  obtain ⟨a, v, rfl, hlength, ha, hstarts⟩ := Clause.position?_eq_some h
  obtain ⟨w, s, rfl, hw, hs⟩ := (filter_startsAt_iff v).mp hstarts
  exact ⟨a, w, s, rfl, hlength, ha, hw, hs⟩

/-- The first filter stays where it is when another text is written behind its word. -/
theorem filter_position?_congr {s' : Text} (ha : (Scan.start.after a).Ready)
    (hw : Spells "WHERE".toList w)
    (hs : nextIs (fun c => isNameCharAnyCase c || c == '.') s = false)
    (hs' : nextIs (fun c => isNameCharAnyCase c || c == '.') s' = false)
    (h : Clause.filter.position? (a ++ (w ++ s)) = some a.length) :
    Clause.filter.position? (a ++ (w ++ s')) = some a.length := by
  have hstarts {s : Text} (hs : nextIs (fun c => isNameCharAnyCase c || c == '.') s = false) :
      (Landmark.clause .filter).startsAt (w ++ s) = true :=
    (filter_startsAt_iff _).mpr ⟨w, s, rfl, hw, hs⟩
  have hheaded := Landmark.headed (hstarts hs)
  have hheaded' := Landmark.headed (hstarts hs')
  obtain ⟨ps, hps⟩ := Landmark.occurrences_eq_cons (hstarts hs)
  obtain ⟨ps', hps'⟩ := Landmark.occurrences_eq_cons (hstarts hs')
  have hcut := wordMarks_landmarks.placesFrom_cut
    (alike_of_headed ha.not_isNameChar hheaded' hheaded) .start
  rw [Clause.position?_eq_find?, occurrences, ha.places_append hheaded.nextIs_isQuoteMark,
    List.find?_append] at h
  rw [Clause.position?_eq_find?, occurrences, ha.places_append hheaded'.nextIs_isQuoteMark, hcut,
    List.find?_append]
  cases hbefore : (placesFrom (fun b => landmarks (b ++ (w ++ s))) .start a).find?
      fun p => [Landmark.clause .filter].contains p.1 with
  | some q =>
      have hlt := lt_length_of_mem_placesFrom (List.mem_of_find?_eq_some hbefore)
      rw [hbefore] at h
      have heq : q.2 = a.length := Option.some.inj h
      omega
  | none =>
      rw [show places landmarks (w ++ s') = _ from hps']
      simp [shift]

/-- The text behind the word of the first filter. -/
theorem take_drop_filter (hw : Spells "WHERE".toList w) (a : Text)
    (hs : nextIs (fun c => isNameCharAnyCase c || c == '.') s = false) :
    (a ++ (w ++ s)).take (a.length + Clause.filter.keyword.length ((a ++ (w ++ s)).drop a.length)) =
        a ++ w ∧
      (a ++ (w ++ s)).drop (a.length + Clause.filter.keyword.length ((a ++ (w ++ s)).drop a.length)) =
        s := by
  rw [List.drop_left, length_filter hw hs, ← List.append_assoc, ← List.length_append]
  exact ⟨List.take_left, List.drop_left⟩

/-- The condition goes first, behind a blank. -/
theorem joinCondition_eq_append (condition s : Text) :
    ∃ t, joinCondition condition s = ' ' :: (condition ++ t) := by
  by_cases h : (Keyword.or.position? (splitPredicate s).1).isNone = true
  · exact ⟨' ' :: ("AND".toList ++ s), by simp [joinCondition_of_isNone h]⟩
  · exact ⟨_, (joinCondition_of_or h condition).trans (by rw [List.cons_append, List.append_assoc])⟩

/-- The predicate of a query to which a condition is added has one reading, the joined formula: it
is true when both are, or when what is not bound in the condition is. -/
theorem predicate?_addCondition (hsql : predicate? (trimTerminator sql) = some t)
    (hf : Written A.texts .sum f t) (hg : Written A.texts .sum g condition) :
    ∃ t' h, predicate? (addCondition condition sql) = some t' ∧
      (∀ h', Written A.texts .sum h' t' ↔ h' = h) ∧
      ∀ v, h.holds v = (g.unbound v || (g.holds v && f.holds v)) := by
  obtain ⟨p, hposition, hpredicate⟩ := Option.map_eq_some_iff.mp hsql
  obtain ⟨a, w, s, htrim, rfl, ha, hw, hs⟩ := filter_position?_eq_some hposition
  rw [htrim] at hposition hpredicate
  rw [(take_drop_filter hw a hs).2] at hpredicate
  obtain rfl := hpredicate
  have hnonempty : (sql.isEmpty || condition.isEmpty) = false := by
    have hsql : sql ≠ [] := by
      rintro rfl
      obtain ⟨c, r, rfl, -⟩ := hw.exists_cons (by decide)
      simp [trimTerminator, trimEnd] at htrim
    simp [hsql, hg.ne_nil]
  have hresult : addCondition condition sql = a ++ (w ++ joinCondition condition s) := by
    rw [addCondition, hnonempty, if_neg (by simp)]
    simp only [htrim, hposition]
    rw [(take_drop_filter hw a hs).1, (take_drop_filter hw a hs).2, List.append_assoc]
  obtain ⟨x, hx⟩ := joinCondition_eq_append condition s
  have hblank : nextIs (fun c => isNameCharAnyCase c || c == '.') (joinCondition condition s) =
      false := by
    rw [hx]
    exact nextIs_name_blank _
  have hposition' := filter_position?_congr ha hw hs hblank hposition
  have hnext : nextIs (fun c => isNameCharAnyCase c || c == '.') (splitPredicate s).1 = false := by
    rw [← splitPredicate_append s] at hs
    exact nextIs_of_append hs
  obtain ⟨gap, hgap, hsplit⟩ := splitPredicate_joinCondition hf hg hs
  have hwritten :
      Written A.texts .sum (f.conjoin g) (splitPredicate (joinCondition condition s)).1 := by
    rw [hsplit]
    exact ((hf.conjoin hg hnext).blank_append gap_singleton.2).append_blank hgap
  refine ⟨_, f.conjoin g, ?_, fun h => ⟨fun hh => hh.unique hwritten, ?_⟩, f.holds_conjoin g⟩
  · rw [hresult, predicate?, hposition', Option.map_some, (take_drop_filter hw a hblank).2]
  · rintro rfl
    exact hwritten

/-- Three conditions of one letter each. -/
def letters : Atoms where
  texts := {s | s ∈ [['a'], ['b'], ['c']]}
  nonempty := (by decide : ∀ s ∈ [['a'], ['b'], ['c']], s ≠ [])
  trimmed := (by decide : ∀ s ∈ [['a'], ['b'], ['c']], trim s = s)
  closed := (by decide : ∀ s ∈ [['a'], ['b'], ['c']], Closed s)
  whole := (by decide : ∀ s ∈ [['a'], ['b'], ['c']], connectives s = [])
  quiet := (by decide : ∀ s ∈ [['a'], ['b'], ['c']], occurrences s = [])
  bare s hs := by
    have hmem : '(' :: (s ++ [')']) ∈ [['a'], ['b'], ['c']] := hs
    simp at hmem

theorem written_letter (hs : s ∈ [['a'], ['b'], ['c']]) (hg : Blank gap) (hg' : Blank gap') :
    Written letters.texts .product (.atom s) (gap ++ s ++ gap') := .ofFactor (.atom hs hg hg')

theorem written_or_letters (hs : s ∈ [['a'], ['b'], ['c']]) (ht : t ∈ [['a'], ['b'], ['c']])
    (hg : Blank gap) (hg' : Blank gap') :
    Written letters.texts .sum (.disj (.atom s) (.atom t))
      (gap ++ s ++ [' '] ++ ("OR".toList ++ ([' '] ++ t ++ gap'))) := by
  refine .disj (.ofProduct (written_letter hs hg gap_singleton.2))
    (written_letter ht gap_singleton.2 hg') (spells_self _) ⟨fun d hd => ?_, ?_⟩
  · rw [List.getLast?_append_of_ne_nil _ (List.cons_ne_nil _ _)] at hd
    obtain rfl := Option.some.inj hd
    decide
  · exact nextIs_name_blank _

/-- A sum as the predicate, with a limit behind it. -/
theorem predicate?_addCondition_letters :
    predicate? (trimTerminator "SELECT 1 WHERE b OR c LIMIT 5".toList) =
        some " b OR c ".toList ∧
      Written letters.texts .sum (.disj (.atom ['b']) (.atom ['c'])) " b OR c ".toList ∧
      Written letters.texts .sum (.atom ['a']) ['a'] ∧
      ∃ t' h, predicate? (addCondition ['a'] "SELECT 1 WHERE b OR c LIMIT 5".toList) = some t' ∧
        (∀ h', Written letters.texts .sum h' t' ↔ h' = h) ∧
        ∀ v, h.holds v = ((Formula.atom ['a']).unbound v ||
          ((Formula.atom ['a']).holds v &&
            (Formula.disj (.atom ['b']) (.atom ['c'])).holds v)) := by
  have hsql : predicate? (trimTerminator "SELECT 1 WHERE b OR c LIMIT 5".toList) =
      some " b OR c ".toList := by decide
  have hpredicate : Written letters.texts .sum (.disj (.atom ['b']) (.atom ['c']))
      " b OR c ".toList :=
    written_or_letters (s := ['b']) (t := ['c']) (by decide) (by decide) gap_singleton.2
      gap_singleton.2
  have hcondition : Written letters.texts .sum (.atom ['a']) ['a'] :=
    .ofProduct (written_letter (s := ['a']) (by decide) blank_nil blank_nil)
  exact ⟨hsql, hpredicate, hcondition, predicate?_addCondition hsql hpredicate hcondition⟩

/-- Behind the condition `a OR b` the `AND` binds `b` only: where `a` alone is true, so is the new
predicate. -/
theorem not_holds_and_of_or :
    ¬ ∀ f g h t t', predicate? (trimTerminator "SELECT 1 WHERE c".toList) = some t →
      Written letters.texts .sum f t → Written letters.texts .sum g "a OR b".toList →
      predicate? (addCondition "a OR b".toList "SELECT 1 WHERE c".toList) = some t' →
      Written letters.texts .sum h t' → ∀ v, h.holds v = (g.holds v && f.holds v) := by
  intro hall
  have hpredicate : Written letters.texts .sum (.atom ['c']) [' ', 'c'] :=
    .ofProduct (written_letter (s := ['c']) (by decide) gap_singleton.2 blank_nil)
  have hcondition : Written letters.texts .sum (.disj (.atom ['a']) (.atom ['b']))
      "a OR b".toList :=
    written_or_letters (s := ['a']) (t := ['b']) (by decide) (by decide) blank_nil blank_nil
  have hjoined := ((hpredicate.conjoin hcondition (by decide)).blank_append gap_singleton.2)
  have heq := hall _ _ _ _ _ (by decide) hpredicate hcondition (by decide) hjoined
    fun s => s == ['a']
  exact absurd heq (by decide)

end QuerySplice.Sql
