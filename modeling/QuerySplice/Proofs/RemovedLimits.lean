import QuerySplice.Proofs.Removals

/-!
# Removed limits

A limit is removed in two ways. In front of settings or a format everything goes from its keyword up
to them. At the end of a query the keyword and its numbers go and the text behind the numbers stays,
or everything goes if there are no numbers. Blanks are moved in both ways, so the results are
compared by their other characters. A query with a format behind it loses the text behind the
numbers of its limit, and without the format it keeps that text.
-/

namespace QuerySplice.Sql

open Text

variable {s t u v x sql : Text} {l : Landmark} {p : Nat}

/-- The characters of a text that are no blanks. -/
def solid (s : Text) : Text := s.filter fun c => !isBlank c

theorem solid_append (s t : Text) : solid (s ++ t) = solid s ++ solid t := List.filter_append ..

theorem solid_eq_nil_iff : solid s = [] ↔ Blank s := by
  rw [solid, List.filter_eq_nil_iff, Blank]
  simp only [Bool.not_eq_true', Bool.not_eq_false]

theorem solid_trimEnd (s : Text) : solid (trimEnd s) = solid s := by
  obtain ⟨gap, hgap, hblank⟩ := exists_trimEnd_append s
  conv_rhs => rw [hgap, solid_append, solid_eq_nil_iff.mpr hblank, List.append_nil]

theorem solid_trim (s : Text) : solid (trim s) = solid s := by
  obtain ⟨gap, gap', hgap, hblank, hblank'⟩ := exists_trim_append s
  conv_rhs =>
    rw [hgap, solid_append, solid_append, solid_eq_nil_iff.mpr hblank, solid_eq_nil_iff.mpr hblank',
      List.append_nil, List.nil_append]

/-! ## The two ways -/

/-- At the end of a query a limit goes without the text behind its numbers. -/
theorem solid_removeLimit (h : Clause.limit.position? sql = some u.length)
    (htrim : trimTerminator sql = u ++ v)
    (hnone : firstPosition? Clause.limit.followingKeywords v = none) :
    solid (removeLimit sql) = solid u ++ solid ((readLimit v).getD []) := by
  rw [removeLimit_of_split h htrim, hnone]
  cases readLimit v with
  | none => exact (solid_trimEnd u).trans (List.append_nil _).symm
  | some tail =>
      have hsplit : solid (trimEnd u ++ ' ' :: trim tail) = solid u ++ solid tail := by
        have hblank : solid (' ' :: trim tail) = solid (trim tail) :=
          List.filter_cons_of_neg (by decide)
        rw [solid_append, hblank, solid_trimEnd, solid_trim]
      by_cases hempty : (trim tail).isEmpty = true
      · have htail : solid tail = [] := by
          rw [← solid_trim, List.isEmpty_iff.mp hempty]
          rfl
        simp only [hempty, if_true, Option.getD_some, htail, List.append_nil, solid_trimEnd]
      · simp only [hempty, Bool.false_eq_true, if_false, Option.getD_some, hsplit]

/-- The clauses behind a limit that a level query lacks begin where one is put behind it. -/
theorem firstPosition?_append_landmark (hlevel : Level s)
    (hquiet : ∀ o ∈ occurrences s, o.1 ∉ Clause.limit.after) (hl : l ∈ Clause.limit.after)
    (hx : l.startsAt x = true) :
    firstPosition? Clause.limit.followingKeywords (s ++ ' ' :: x) = some (s.length + 1) := by
  have hnone : (occurrences s).find? (fun o => Clause.limit.after.contains o.1) = none :=
    List.find?_eq_none.mpr fun o ho hmem => hquiet o ho (List.contains_iff_mem.mp hmem)
  obtain ⟨ps, hps⟩ := Landmark.occurrences_eq_cons hx
  rw [firstPosition?_eq_find?, occurrences,
    wordMarks_landmarks.places_seam hlevel (Landmark.headed hx).fresh, List.find?_append]
  rw [occurrences] at hnone hps
  have hfirst : ((l, 0) :: ps).find? (fun o => Clause.limit.after.contains o.1) = some (l, 0) :=
    List.find?_cons_of_pos (List.contains_iff_mem.mpr hl)
  rw [hnone, hps, find?_shift fun l => Clause.limit.after.contains l, hfirst]
  simp

/-- In front of settings or a format a limit goes with everything behind it. -/
theorem removeLimit_append_landmark (hp : Clause.limit.position? sql = some p)
    (hlevel : Level sql) (hquiet : ∀ o ∈ occurrences sql, o.1 ∉ Clause.limit.after)
    (hl : l ∈ Clause.limit.after) (hx : l.startsAt x = true) (hend : EndsClean x) :
    removeLimit (sql ++ ' ' :: x) = sql.take p ++ x := by
  have hheaded := Landmark.headed hx
  have hne : ' ' :: x ≠ [] := by simp
  have hendsClean : EndsClean (sql ++ ' ' :: x) := by
    obtain ⟨d, r, rfl, -⟩ := hheaded.exists_cons
    rw [List.append_cons]
    exact (endsClean_append_iff (by simp) _).mpr hend
  obtain ⟨hposition, -⟩ :=
    position?_append_of_some hheaded.fresh Clause.limit.keyword_mem_locatable hp
  obtain ⟨u, v, rfl, rfl, hu, hv⟩ := Clause.position?_eq_some hp
  have hvheaded := Landmark.headed hv
  -- The scan of the limit and what is behind it is the one of a query of its own.
  have hvlevel : Level v := by
    obtain ⟨d, r, rfl, -⟩ := hvheaded.exists_cons
    have hafter := hu.after_append hvheaded.nextIs_isQuoteMark (by simp)
    exact ⟨hafter ▸ hlevel.outside, hafter ▸ hlevel.depth⟩
  have hvquiet : ∀ o ∈ occurrences v, o.1 ∉ Clause.limit.after := fun o ho =>
    hquiet (o.1, o.2 + u.length) (mem_occurrences_append hu hvheaded.nextIs_isQuoteMark ho)
  have hfirst := firstPosition?_append_landmark hvlevel hvquiet hl hx
  rw [List.append_assoc] at hposition hendsClean ⊢
  rw [removeLimit_of_split hposition hendsClean.trimTerminator_eq, hfirst, List.take_left]
  simp only [drop_length_succ]

/-! ## The two ways compared -/

theorem not_mem_limit_after (hsettings : hasClause .settings sql = false)
    (hformat : hasClause .format sql = false) : ∀ o ∈ occurrences sql, o.1 ∉ Clause.limit.after := by
  intro o ho hmem
  have hafter : ∀ l ∈ Clause.limit.after, l = .clause .settings ∨ l = .clause .format := by decide
  have hfound := List.mem_map_of_mem (f := Prod.fst) ho
  rcases hafter _ hmem with hl | hl <;> rw [hl, ← hasClause_iff] at hfound
  · exact absurd hfound (by simp [hsettings])
  · exact absurd hfound (by simp [hformat])

/-- A format behind a query takes everything from its limit on with it, and blanks apart this is the
limit alone exactly if the text behind its numbers is blank. -/
theorem solid_removeLimit_format_iff (hp : Clause.limit.position? sql = some p)
    (hlevel : Level sql) (hsettings : hasClause .settings sql = false)
    (hformat : hasClause .format sql = false) :
    removeLimit (sql ++ " FORMAT JSON".toList) = sql.take p ++ "FORMAT JSON".toList ∧
      (solid (removeLimit (sql ++ " FORMAT JSON".toList)) =
          solid (removeLimit sql ++ " FORMAT JSON".toList) ↔
        ∀ tail ∈ readLimit ((trimTerminator sql).drop p), Blank tail) := by
  have hquiet := not_mem_limit_after hsettings hformat
  have hresult : removeLimit (sql ++ " FORMAT JSON".toList) =
      sql.take p ++ "FORMAT JSON".toList :=
    removeLimit_append_landmark (l := .clause .format) hp hlevel hquiet (by decide) (by decide)
      (by decide)
  refine ⟨hresult, ?_⟩
  obtain ⟨u, v, htrim, rfl, hu, hv⟩ := Clause.exists_trimTerminator_append hp
  have hnone : firstPosition? Clause.limit.followingKeywords v = none := by
    rw [← occurrences_trimTerminator, htrim] at hquiet
    exact firstPosition?_eq_none_iff.mpr fun o ho => hquiet (o.1, o.2 + u.length)
      (mem_occurrences_append hu (Landmark.headed hv).nextIs_isQuoteMark ho)
  have htake : sql.take u.length = u := by
    obtain ⟨tail, hsql, -⟩ := exists_append_terminator sql
    rw [hsql, htrim, List.append_assoc, List.take_left]
  have hformatted : solid " FORMAT JSON".toList = solid "FORMAT JSON".toList := by decide
  rw [hresult, htake, htrim, List.drop_left, solid_append, solid_append, hformatted,
    solid_removeLimit hp htrim hnone, List.append_cancel_right_eq]
  cases readLimit v with
  | none => simp [solid]
  | some tail => simp [solid_eq_nil_iff]

/-- A limit with two numbers and an offset, with a blank behind it. -/
def offsetSample : Text := "SELECT (a LIMIT 1) limit 10 ,20\tOFFSET 5\n".toList

/-- Its limit goes in the same way with a format behind it and without one. -/
theorem solid_removeLimit_format_offsetSample :
    Clause.limit.position? offsetSample = some 19 ∧ Level offsetSample ∧
      hasClause .settings offsetSample = false ∧ hasClause .format offsetSample = false ∧
      removeLimit (offsetSample ++ " FORMAT JSON".toList) =
        "SELECT (a LIMIT 1) FORMAT JSON".toList ∧
      solid (removeLimit (offsetSample ++ " FORMAT JSON".toList)) =
        solid (removeLimit offsetSample ++ " FORMAT JSON".toList) := by
  have hposition : Clause.limit.position? offsetSample = some 19 := by decide
  have hlevel : Level offsetSample := by decide
  have hsettings : hasClause .settings offsetSample = false := by decide
  have hformat : hasClause .format offsetSample = false := by decide
  obtain ⟨hresult, hsame⟩ := solid_removeLimit_format_iff hposition hlevel hsettings hformat
  refine ⟨hposition, hlevel, hsettings, hformat, hresult.trans (by decide), hsame.mpr ?_⟩
  have hread : readLimit ((trimTerminator offsetSample).drop 19) = some ['\n'] := by decide
  rw [hread]
  rintro tail ⟨⟩
  exact List.forall_mem_singleton.mpr (by decide)

/-- The second half of a union stands behind a limit and goes with it in front of a format, and it
stays at the end of the query. -/
theorem not_solid_removeLimit_format_union :
    ¬ ∀ sql p, Clause.limit.position? sql = some p → Level sql →
      hasClause .settings sql = false → hasClause .format sql = false →
      (trimEnd sql).getLast? ≠ some ';' →
      solid (removeLimit (sql ++ " FORMAT JSON".toList)) =
        solid (removeLimit sql ++ " FORMAT JSON".toList) := by
  intro hall
  have hunion := hall "SELECT a FROM t LIMIT 5 UNION SELECT b FROM u".toList 16 (by decide)
    (by decide) (by decide) (by decide) (by decide)
  exact absurd hunion (by decide)

/-- The numbers of a limit end in front of a point, and a fraction of it stays. -/
example : removeLimit "SELECT a LIMIT 1.5".toList = "SELECT a .5".toList := by decide

end QuerySplice.Sql
