import QuerySplice.Proofs.LimitTexts
import QuerySplice.Proofs.Terminators

/-!
# Injecting a clause once

An injected clause is found again by the scan of the result, so a second injection leaves the result
alone. This needs a place for the clause: in front of a landmark that comes after it, or at the end
of a query that is level. Behind a query that ends in quotes or in parentheses the clause is read as
a part of these, so a limit that was put there is not found and is put there again.
-/

namespace QuerySplice.Sql

open Text

variable {s t u v x sql : Text} {c : Clause} {st : Scan} {limit : Limit} {column direction : Text}

/-- A clause has its place in the query: in front of a landmark after it, or at the end of a query
that ends outside quotes and parentheses. -/
def Settled (c : Clause) (sql : Text) : Prop :=
  (firstPosition? c.followingKeywords sql).isSome = true ∨ Level sql

instance (c : Clause) (sql : Text) : Decidable (Settled c sql) := by
  unfold Settled
  infer_instance

/-! ## Clauses that are found again -/

theorem startsAt_append_blank {l : Landmark} (hx : l.startsAt x = true) (hv : Fresh v) :
    l.startsAt (x ++ ' ' :: v) = true := by
  rw [← mem_landmarks, wordMarks_landmarks.seam hv, mem_landmarks]
  exact hx

/-- A clause that has its place is found where it was put. -/
theorem hasClause_insertBefore (hx : (Landmark.clause c).startsAt x = true) (h : Settled c sql) :
    hasClause c (insertBefore c.followingKeywords x sql) = true := by
  rw [hasClause_iff]
  cases hfirst : firstPosition? c.followingKeywords sql with
  | some p =>
      obtain ⟨u, v, l, rfl, rfl, hu, -, hv⟩ := firstPosition?_eq_some hfirst
      have hstarts := startsAt_append_blank hx (Landmark.headed hv).fresh
      rw [insertBefore_of_some hfirst]
      exact List.mem_map_of_mem (mem_occurrences_of_ready hu hstarts)
  | none =>
      have hlevel : Level sql := by
        rcases h with h | h
        · simp [hfirst] at h
        · exact h
      have hsplit : sql ++ ' ' :: x = (sql ++ [' ']) ++ x := by simp
      rw [insertBefore_of_none hfirst, hsplit]
      exact List.mem_map_of_mem (mem_occurrences_of_ready hlevel.ready hx)

/-- Where the scan is inside quotes or at another depth than zero, plain text keeps it there. -/
theorem Scan.covers_of_not_level (hst : st.Marked) (h : st.isOutside = false ∨ st.depth ≠ 0)
    (hplain : PlainText s) : st.Covers s := by
  intro a d b hab
  induction a generalizing st s with
  | nil =>
      refine Bool.eq_false_iff.mpr fun htop => ?_
      obtain ⟨hpl, hdepth, -⟩ := (topLevel_iff _ _).mp htop
      rcases h with h | h
      · exact absurd (isOutside_of_outside hpl.1) (by simp [h])
      · exact h hdepth
  | cons e a ih =>
      subst hab
      obtain ⟨hmark, hweight⟩ := hplain e (by simp)
      refine ih (marked_step hst e) ?_ (fun f hf => hplain f (by simp [hf])) rfl
      by_cases hout : st.isOutside = true
      · have hread := outside_of_isOutside hst hout hmark
        have hne : st.depth ≠ 0 := by simpa [hout] using h
        exact Or.inr (by rwa [step_depth hread, hweight, Int.add_zero])
      · exact Or.inl (isOutside_step hst hmark (Bool.eq_false_iff.mpr hout))

/-- Behind a query that is not level nothing is found in plain text. -/
theorem occurrences_append_of_not_level (h : ¬ Level s) (hfresh : Fresh t) (hplain : PlainText t) :
    occurrences (s ++ ' ' :: t) = occurrences s := by
  have hopen : (Scan.start.after s).isOutside = false ∨ (Scan.start.after s).depth ≠ 0 := by
    by_contra hno
    rw [not_or, Bool.not_eq_false, not_not] at hno
    exact h ⟨hno.1, hno.2⟩
  have hblank : PlainText (' ' :: t) := PlainText.append (s := [' ']) (by decide) hplain
  have hcovers := Scan.covers_of_not_level (Scan.marked_after Scan.ready_start.marked s) hopen hblank
  rw [occurrences, places, placesFrom_append, placesFrom_eq_nil_of_covers hcovers]
  simp only [wordMarks_landmarks.seam hfresh, shift_nil, List.append_nil]
  rfl

/-! ## The clauses of limits and orders -/

theorem limitClause_startsAt (limit : Limit) :
    (Landmark.clause .limit).startsAt (limitClause limit) = true := by
  rw [limitClause_eq]
  exact limit_startsAt fun d hd => (isLimitChar_classes (limitChars_text limit d hd)).2.2.2.2.2

theorem orderClause_startsAt (column direction : Text) :
    (Landmark.clause .order).startsAt (orderClause column direction) = true := by
  rw [orderClause_eq]
  exact order_startsAt _

theorem plainText_limitClause (limit : Limit) : PlainText (limitClause limit) := by
  have hword : PlainText "LIMIT ".toList := by decide
  intro d hd
  rcases List.mem_append.mp hd with hd | hd
  · exact hword d hd
  · have hclasses := isLimitChar_classes (limitChars_text limit d hd)
    exact ⟨hclasses.2.2.2.1, hclasses.2.2.2.2.1⟩

theorem endsClean_limitClause (limit : Limit) (s : Text) : EndsClean (s ++ limitClause limit) := by
  have hclean : EndsClean limit.text := fun d hd => by
    have hclasses := isLimitChar_classes (limitChars_text limit d (List.mem_of_getLast? hd))
    exact ⟨hclasses.1, hclasses.2.1⟩
  have hsplit : s ++ limitClause limit = (s ++ "LIMIT ".toList) ++ limit.text :=
    (List.append_assoc s "LIMIT ".toList limit.text).symm
  rw [hsplit, endsClean_append_iff (limitText_ne_nil limit)]
  exact hclean

/-! ## When a query takes a clause -/

theorem takesLimit_iff :
    takesLimit limit sql = true ↔ sql ≠ [] ∧ limit.isPositive = true ∧
      hasClause .limit sql = false ∧ isSelect sql = true := by
  rw [takesLimit, limitSkip?]
  cases hsql : sql.isEmpty <;> cases hpos : limit.isPositive <;>
    cases hhas : hasClause .limit sql <;> cases hsel : isSelect sql <;>
    simp_all [List.isEmpty_iff]

theorem takesOrder_iff :
    takesOrder column sql = true ↔ sql ≠ [] ∧ column ≠ [] ∧
      hasClause .order sql = false ∧ isPlainAggregate sql = false := by
  rw [takesOrder, orderSkip?]
  cases hsql : sql.isEmpty <;> cases hcol : column.isEmpty <;>
    cases hhas : hasClause .order sql <;> cases hagg : isPlainAggregate sql <;>
    simp_all [List.isEmpty_iff]

theorem injectLimit_of_takes (h : takesLimit limit sql = true) :
    injectLimit limit sql =
      insertBefore Clause.limit.followingKeywords (limitClause limit) (trimTerminator sql) := by
  rw [injectLimit, if_pos h]

theorem injectLimit_of_not_takes (h : takesLimit limit sql = false) :
    injectLimit limit sql = sql := by
  rw [injectLimit, h, if_neg (by simp)]

theorem injectOrder_of_takes (h : takesOrder column sql = true) (direction : Text) :
    injectOrder column direction sql =
      insertBefore Clause.order.followingKeywords (orderClause column direction)
        (trimTerminator sql) := by
  rw [injectOrder, if_pos h]

theorem injectOrder_of_not_takes (h : takesOrder column sql = false) (direction : Text) :
    injectOrder column direction sql = sql := by
  rw [injectOrder, h, if_neg (by simp)]

theorem takesLimit_of_hasClause (h : hasClause .limit sql = true) :
    takesLimit limit sql = false := by
  refine Bool.eq_false_iff.mpr fun htakes => ?_
  rw [(takesLimit_iff.mp htakes).2.2.1] at h
  cases h

theorem takesOrder_of_hasClause (h : hasClause .order sql = true) :
    takesOrder column sql = false := by
  refine Bool.eq_false_iff.mpr fun htakes => ?_
  rw [(takesOrder_iff.mp htakes).2.2.1] at h
  cases h

/-- A limit behind a query that has no place for it is not found, and the query takes it again. -/
theorem takesLimit_injectLimit (h : takesLimit limit sql = true)
    (hplace : ¬ Settled .limit (trimTerminator sql)) :
    takesLimit limit (injectLimit limit sql) = true ∧
      trimTerminator (injectLimit limit sql) = injectLimit limit sql := by
  obtain ⟨-, hpositive, hhas, hselect⟩ := takesLimit_iff.mp h
  obtain ⟨hfirst, hlevel⟩ := not_or.mp hplace
  have hnone := Option.not_isSome_iff_eq_none.mp hfirst
  have hfresh : Fresh (limitClause limit) := (Landmark.headed (limitClause_startsAt limit)).fresh
  rw [injectLimit_of_takes h, insertBefore_of_none hnone]
  constructor
  · rw [takesLimit_iff]
    refine ⟨by simp, hpositive, ?_, ?_⟩
    · rw [← hhas, Bool.eq_iff_iff, hasClause_iff, hasClause_iff,
        occurrences_append_of_not_level hlevel hfresh (plainText_limitClause limit),
        occurrences_trimTerminator]
    · rw [← isSelect_trimTerminator] at hselect
      have hne : trimStart (trimTerminator sql) ≠ [] := by
        intro hnil
        rw [isSelect_of_not_letter (by rw [hnil]; rfl)] at hselect
        cases hselect
      rw [isSelect_cut (alike_seam hfresh _) hne, List.append_nil]
      exact hselect
  · have hsplit : trimTerminator sql ++ ' ' :: limitClause limit =
        (trimTerminator sql ++ [' ']) ++ limitClause limit := by simp
    rw [hsplit]
    exact (endsClean_limitClause limit _).trimTerminator_eq

/-- Injecting a clause twice is injecting it once where the clause is not injected at all, where a
landmark after it gives it its place, and behind a level query; in the last two cases the clause is
found in the result. A limit is injected again by the second call in all other cases. -/
theorem inject_inject (limit : Limit) (column direction sql : Text) :
    (injectLimit limit (injectLimit limit sql) = injectLimit limit sql ↔
        (takesLimit limit sql = false ∨ Settled .limit (trimTerminator sql))) ∧
      (takesLimit limit sql = true → Settled .limit (trimTerminator sql) →
        hasClause .limit (injectLimit limit sql) = true) ∧
      ((takesOrder column sql = false ∨ Settled .order (trimTerminator sql)) →
        injectOrder column direction (injectOrder column direction sql) =
          injectOrder column direction sql) ∧
      (takesOrder column sql = true → Settled .order (trimTerminator sql) →
        hasClause .order (injectOrder column direction sql) = true) := by
  have hlimit (htakes : takesLimit limit sql = true) (hplace : Settled .limit (trimTerminator sql)) :
      hasClause .limit (injectLimit limit sql) = true := by
    rw [injectLimit_of_takes htakes]
    exact hasClause_insertBefore (limitClause_startsAt limit) hplace
  have horder (htakes : takesOrder column sql = true)
      (hplace : Settled .order (trimTerminator sql)) :
      hasClause .order (injectOrder column direction sql) = true := by
    rw [injectOrder_of_takes htakes]
    exact hasClause_insertBefore (orderClause_startsAt column direction) hplace
  refine ⟨⟨fun htwice => ?_, fun hcase => ?_⟩, hlimit, fun hcase => ?_, horder⟩
  · by_contra hno
    rw [not_or, Bool.not_eq_false] at hno
    obtain ⟨hagain, htrim⟩ := takesLimit_injectLimit hno.1 hno.2
    have hlength := congrArg List.length htwice
    rw [injectLimit_of_takes hagain, htrim, length_insertBefore] at hlength
    omega
  · by_cases htakes : takesLimit limit sql = true
    · have hplace : Settled .limit (trimTerminator sql) := by simpa [htakes] using hcase
      exact injectLimit_of_not_takes (takesLimit_of_hasClause (hlimit htakes hplace))
    · rw [injectLimit_of_not_takes (Bool.eq_false_iff.mpr htakes),
        injectLimit_of_not_takes (Bool.eq_false_iff.mpr htakes)]
  · by_cases htakes : takesOrder column sql = true
    · have hplace : Settled .order (trimTerminator sql) := by simpa [htakes] using hcase
      exact injectOrder_of_not_takes (takesOrder_of_hasClause (horder htakes hplace)) direction
    · rw [injectOrder_of_not_takes (Bool.eq_false_iff.mpr htakes),
        injectOrder_of_not_takes (Bool.eq_false_iff.mpr htakes)]

/-- Behind an open parenthesis the second limit is added to the first. -/
example : injectLimit (.whole 5) (injectLimit (.whole 5) "SELECT (1".toList) =
    "SELECT (1 LIMIT 5 LIMIT 5".toList := by decide

end QuerySplice.Sql
