import QuerySplice.Proofs.Insertions

/-!
# The terminator of a query

An edit that may add text at the end of a query first drops one semicolon with the blanks around it.
No recogniser reads on into these, and none starts there, so whatever is found in a query is found
in it without its terminator.
-/

namespace QuerySplice.Sql

open Text

variable {α : Type} {words : List Text} {marks : Text → List α} {s t v : Text}

/-- What is dropped from the end of a query: nothing, or a semicolon with blanks around it. -/
def IsTerminator (t : Text) : Prop :=
  t = [] ∨ ∃ gap gap', t = gap ++ ';' :: gap' ∧ Blank gap ∧ Blank gap'

theorem trimEnd_append_of_ne_nil (hne : trimEnd t ≠ []) (s : Text) :
    trimEnd (s ++ t) = s ++ trimEnd t := by
  have hreverse : t.reverse.dropWhile isBlank ≠ [] := fun h => hne (by rw [trimEnd, h]; rfl)
  rw [trimEnd, trimEnd, List.reverse_append, List.dropWhile_append]
  simp [List.isEmpty_eq_false_iff.mpr hreverse]

theorem getLast?_trimEnd_append (hv : trimEnd v ≠ []) (s : Text) :
    (trimEnd (s ++ v)).getLast? = (trimEnd v).getLast? := by
  rw [trimEnd_append_of_ne_nil hv, List.getLast?_append_of_ne_nil _ hv]

theorem trimTerminator_eq_self (h : (trimEnd s).getLast? ≠ some ';') : trimTerminator s = s := by
  rw [trimTerminator]
  split
  · next hlast => exact absurd hlast h
  · rfl

/-- The semicolon that is dropped and the blanks around it. -/
theorem exists_append_semicolon {sql : Text} (hlast : (trimEnd sql).getLast? = some ';') :
    ∃ gap gap', sql = trimTerminator sql ++ (gap ++ ';' :: gap') ∧ Blank gap ∧ Blank gap' := by
  obtain ⟨gap', hsql, hgap'⟩ := exists_trimEnd_append sql
  obtain ⟨gap, hhead, hgap⟩ := exists_trimEnd_append (trimEnd sql).dropLast
  have htrimmed : trimTerminator sql = trimEnd (trimEnd sql).dropLast := by
    simp only [trimTerminator, hlast]
  have hsplit : trimEnd sql = (trimEnd sql).dropLast ++ [';'] :=
    (List.dropLast_append_getLast? ';' hlast).symm
  refine ⟨gap, gap', ?_, hgap, hgap'⟩
  calc
    sql = trimEnd sql ++ gap' := hsql
    _ = (trimEnd sql).dropLast ++ [';'] ++ gap' := by rw [← hsplit]
    _ = trimEnd (trimEnd sql).dropLast ++ gap ++ [';'] ++ gap' := by rw [← hhead]
    _ = trimTerminator sql ++ (gap ++ ';' :: gap') := by
      rw [htrimmed]
      simp only [List.append_assoc, List.singleton_append]

/-- A query is what is left of it and its terminator. -/
theorem exists_append_terminator (sql : Text) :
    ∃ tail, sql = trimTerminator sql ++ tail ∧ IsTerminator tail := by
  by_cases hlast : (trimEnd sql).getLast? = some ';'
  · obtain ⟨gap, gap', hsql, hgap, hgap'⟩ := exists_append_semicolon hlast
    exact ⟨gap ++ ';' :: gap', hsql, Or.inr ⟨gap, gap', rfl, hgap, hgap'⟩⟩
  · exact ⟨[], by rw [trimTerminator_eq_self hlast, List.append_nil], Or.inl rfl⟩

namespace IsTerminator

variable (ht : IsTerminator t)

include ht

theorem not_letter : t.any isLetterAnyCase = false := by
  rcases ht with rfl | ⟨gap, gap', rfl, hg, hg'⟩
  · rfl
  · rw [List.any_eq_false]
    intro c hc hletter
    have hblank : isBlank c = true ∨ c = ';' := by
      rcases List.mem_append.mp hc with hc | hc
      · exact Or.inl (hg c hc)
      · rcases List.mem_cons.mp hc with rfl | hc
        · exact Or.inr rfl
        · exact Or.inl (hg' c hc)
    rcases hblank with hblank | rfl
    · exact absurd (isBlank_of_letter hletter) (by simp [hblank])
    · exact absurd hletter (by decide)

theorem fresh : Fresh t := by
  rcases ht with rfl | ⟨gap, gap', rfl, hg, -⟩
  · exact fresh_nil
  · have htrim : trimStart (gap ++ ';' :: gap') = ';' :: gap' :=
      trimStart_append hg (show isBlank ';' = false by decide)
    have hletter : isLetterAnyCase ';' = false := by decide
    constructor <;> rw [htrim]
    · rfl
    · rfl
    · simp [readDigits, show isDecimal ';' = false by decide]
    · simp [readWord, sameLetter_eq_false (show 'O'.isAlpha = true by decide) hletter]
    · simp [readWord, sameLetter_eq_false (show 'B'.isAlpha = true by decide) hletter]

/-- Nothing can tell the terminator from the end of the query. -/
theorem alike (s : Text) : Alike s t [] := by
  refine alike_of_not_name ht.fresh fresh_nil ?_ rfl s
  have hblank : ∀ c, isBlank c = true → (isNameCharAnyCase c || isDecimal c || c == '.') = false :=
    fun c hc => isNameChar_or_decimal_of_blank hc
  rcases ht with rfl | ⟨gap, gap', rfl, hg, -⟩
  · rfl
  · cases gap with
    | nil => exact (show (isNameCharAnyCase ';' || isDecimal ';' || ';' == '.') = false by decide)
    | cons c gap => exact hblank c (hg c (by simp))

theorem places_append (hm : WordMarks words marks) (s : Text) :
    places marks (s ++ t) = places marks s :=
  hm.places_append_of_not_letters (ht.alike s) ht.not_letter

end IsTerminator

/-- What stands in a query stands in it without its terminator. -/
theorem places_trimTerminator (hm : WordMarks words marks) (sql : Text) :
    places marks (trimTerminator sql) = places marks sql := by
  obtain ⟨tail, hsql, htail⟩ := exists_append_terminator sql
  conv_rhs => rw [hsql]
  exact (htail.places_append hm _).symm

theorem occurrences_trimTerminator (sql : Text) :
    occurrences (trimTerminator sql) = occurrences sql :=
  places_trimTerminator wordMarks_landmarks sql

theorem hasClause_trimTerminator (c : Clause) (sql : Text) :
    hasClause c (trimTerminator sql) = hasClause c sql := by
  rw [Bool.eq_iff_iff, hasClause_iff, hasClause_iff, occurrences_trimTerminator]

theorem isSelect_of_not_letter (hs : nextIs isLetterAnyCase (trimStart s) = false) :
    isSelect s = false := by
  rw [isSelect]
  cases hread : readWord "SELECT".toList (trimStart s) with
  | none => rfl
  | some rest =>
      obtain ⟨w, htext, hw⟩ := readWord_eq_some_iff.mp hread
      obtain ⟨c, w, rfl, hc⟩ := hw.exists_cons (by decide)
      simp [htext, hc] at hs

theorem isSelect_trimTerminator (sql : Text) : isSelect (trimTerminator sql) = isSelect sql := by
  obtain ⟨tail, hsql, htail⟩ := exists_append_terminator sql
  by_cases hne : trimStart (trimTerminator sql) = []
  · have hnone : nextIs isLetterAnyCase (trimStart tail) = false := by
      cases h : trimStart tail with
      | nil => rfl
      | cons c r =>
          have hmem : c ∈ tail := (trimStart_suffix tail).subset (by simp [h])
          exact Bool.eq_false_iff.mpr (List.any_eq_false.mp htail.not_letter c hmem)
    have hleft : isSelect (trimTerminator sql) = false :=
      isSelect_of_not_letter (by rw [hne]; rfl)
    have hright : isSelect sql = false := by
      apply isSelect_of_not_letter
      rw [hsql, trimStart_append_eq, if_pos hne]
      exact hnone
    rw [hleft, hright]
  · conv_rhs => rw [hsql]
    simpa using (isSelect_cut (htail.alike _) hne).symm

end QuerySplice.Sql
