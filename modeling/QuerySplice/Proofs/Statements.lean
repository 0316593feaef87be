import Mathlib.Data.List.DropRight
import QuerySplice.Proofs.Comments

/-!
# Where a statement ends

A query of one statement ends with a run of semicolons and blanks. Of this run an edit drops one
semicolon at a time with the blanks around it. What is left is effective, so that more can be
written behind it, if it has no semicolon at its end and the run is not part of a comment that ends
with the line.
-/

namespace QuerySplice.Sql

open Text

/-- The semicolons and blanks at the end of a query. -/
def trailingRun (sql : Text) : Text := sql.rtakeWhile fun c => c == ';' || isBlank c

/-- A query whose terminators all stand in the run at its end, with its quotes, parentheses and
comments closed. A comment may still be ended by the end of the last line. -/
structure SingleStatement (sql : Text) : Prop where
  clean : Reading.start.clean (sql.rdropWhile fun c => c == ';' || isBlank c) = true
  quotes : (Reading.start.after sql).scan.isOutside = true
  parens : (Reading.start.after sql).depth = 0
  comments : (Reading.start.after sql).comment ≠ .block ∧ (Reading.start.after sql).comment ≠ .star

instance (sql : Text) : Decidable (SingleStatement sql) :=
  decidable_of_iff
    (Reading.start.clean (sql.rdropWhile fun c => c == ';' || isBlank c) = true ∧
      (Reading.start.after sql).scan.isOutside = true ∧ (Reading.start.after sql).depth = 0 ∧
      (Reading.start.after sql).comment ≠ .block ∧ (Reading.start.after sql).comment ≠ .star)
    ⟨fun ⟨hc, hq, hp, hb, hs⟩ => ⟨hc, hq, hp, hb, hs⟩,
      fun h => ⟨h.clean, h.quotes, h.parens, h.comments.1, h.comments.2⟩⟩

/-- No statement has ended behind the text, and no comment is open there. -/
structure Effective (s : Text) : Prop where
  clean : Reading.start.clean s = true
  outside : (Reading.start.after s).inComment = false

instance (s : Text) : Decidable (Effective s) :=
  decidable_of_iff (Reading.start.clean s = true ∧ (Reading.start.after s).inComment = false)
    ⟨fun ⟨hc, ho⟩ => ⟨hc, ho⟩, fun h => ⟨h.clean, h.outside⟩⟩


/-- The text consists of semicolons and blanks. -/
def TerminatorRun (s : Text) : Prop := ∀ c ∈ s, c = ';' ∨ isBlank c = true

/-- A comment of the line is open in front of such a tail of the text. -/
def LineOpenBefore (tail : Text → Prop) (s : Text) : Prop :=
  ∃ front rest, s = front ++ rest ∧ tail rest ∧ LineOpen front

variable {s t a sql : Text} {c : Char}

/-! ## Effective texts -/

/-- Texts that end the same statements and comments are effective together. -/
theorem effective_congr (hclean : Reading.start.clean s = Reading.start.clean t)
    (hcomment : (Reading.start.after s).inComment = (Reading.start.after t).inComment) :
    Effective s ↔ Effective t := by
  constructor
  · rintro ⟨hs, ho⟩
    exact ⟨hclean.symm.trans hs, hcomment.symm.trans ho⟩
  · rintro ⟨ht, ho⟩
    exact ⟨hclean.trans ht, hcomment.trans ho⟩

/-- Calm characters without semicolons and line breaks change nothing. -/
theorem effective_append_iff (ht : Calm t) (hsemicolon : ';' ∉ t) (hline : '\n' ∉ t) :
    Effective (s ++ t) ↔ Effective s := by
  apply effective_congr
  · rw [Reading.clean_append, Reading.clean_of_not_mem hsemicolon, Bool.and_true]
  · rw [Reading.after_append]
    exact Reading.inComment_after_calm ht fun _ => hline

theorem effective_append_blank_iff : Effective (s ++ [' ']) ↔ Effective s :=
  effective_append_iff (by decide) (by decide) (by decide)

/-- Where no comment of the line is open, a calm text without semicolons may be replaced by a
blank. -/
theorem effective_replace_calm_iff (hs : ¬ LineOpen s) (ha : Calm a) (hne : a ≠ [])
    (hsemicolon : ';' ∉ a) : Effective (s ++ ' ' :: t) ↔ Effective (s ++ (a ++ t)) := by
  have hafter : Reading.start.after (s ++ [' ']) = Reading.start.after (s ++ a) := by
    rw [Reading.after_append, Reading.after_append, Reading.after_calm
      (fun hline => hs (lineOpen_iff.mpr hline)) (Reading.marked_start s) ha hne]
    rfl
  have hblank : ';' ∉ [' '] := by decide
  have hclean : Reading.start.clean (s ++ [' ']) = Reading.start.clean (s ++ a) := by
    rw [Reading.clean_append, Reading.clean_append, Reading.clean_of_not_mem hsemicolon,
      Reading.clean_of_not_mem hblank]
  rw [List.append_cons, ← List.append_assoc s a t]
  apply effective_congr
  · rw [Reading.clean_append (s := s ++ [' ']), Reading.clean_append (s := s ++ a), hclean, hafter]
  · rw [Reading.after_append (s := s ++ [' ']), Reading.after_append (s := s ++ a), hafter]

/-- Inside a comment of the line nothing is effective. -/
theorem LineOpen.not_effective (h : LineOpen s) : ¬ Effective s := by
  rintro ⟨-, hout⟩
  rw [Reading.inComment, lineOpen_iff.mp h] at hout
  cases hout

/-- A comment of the line hides the text in front of the next line break. -/
theorem LineOpen.effective_append_iff (h : LineOpen s) (ha : '\n' ∉ a) :
    Effective (s ++ (a ++ '\n' :: t)) ↔ Effective (s ++ '\n' :: t) := by
  obtain ⟨hafter, hclean⟩ := Reading.after_line (lineOpen_iff.mp h) ha
  apply effective_congr
  · rw [Reading.clean_append, Reading.clean_append, Reading.clean_append, hafter, hclean,
      Bool.true_and]
  · rw [Reading.after_append, Reading.after_append, Reading.after_append, hafter]

/-! ## The run at the end -/

theorem TerminatorRun.calm (h : TerminatorRun s) : Calm s :=
  .of_class (fun c => c == ';' || isBlank c) (by decide) fun c hc => by simpa using h c hc

theorem Blank.terminatorRun (h : Blank s) : TerminatorRun s := fun c hc => Or.inr (h c hc)

theorem Blank.not_mem_semicolon (h : Blank s) : ';' ∉ s := fun hmem =>
  absurd (h ';' hmem) (by decide)

theorem IsTerminator.terminatorRun (h : IsTerminator s) : TerminatorRun s := by
  rcases h with rfl | ⟨gap, gap', rfl, hg, hg'⟩
  · exact blank_nil.terminatorRun
  · intro c hc
    rcases List.mem_append.mp hc with hc | hc
    · exact Or.inr (hg c hc)
    · exact (List.mem_cons.mp hc).imp_right (hg' c)

theorem TerminatorRun.append (hs : TerminatorRun s) (ht : TerminatorRun t) :
    TerminatorRun (s ++ t) := fun c hc => (List.mem_append.mp hc).elim (hs c) (ht c)

theorem terminatorRun_trailingRun (s : Text) : TerminatorRun (trailingRun s) := fun c hc => by
  simpa using List.mem_rtakeWhile_imp hc

/-- A query is a body and the run at its end. -/
theorem rdropWhile_append_trailingRun (s : Text) :
    (s.rdropWhile fun c => c == ';' || isBlank c) ++ trailingRun s = s :=
  List.rdropWhile_append_rtakeWhile

theorem trailingRun_append (ht : TerminatorRun t) (s : Text) :
    trailingRun (s ++ t) = trailingRun s ++ t ∧
      ((s ++ t).rdropWhile fun c => c == ';' || isBlank c) =
        s.rdropWhile fun c => c == ';' || isBlank c := by
  have hall : ∀ c ∈ t.reverse, (c == ';' || isBlank c) = true := fun c hc => by
    simpa using ht c (List.mem_reverse.mp hc)
  constructor
  · rw [trailingRun, List.rtakeWhile, List.reverse_append, List.takeWhile_append_of_pos hall,
      List.reverse_append, List.reverse_reverse]
    rfl
  · rw [List.rdropWhile, List.reverse_append, List.dropWhile_append_of_pos hall]
    rfl

theorem trimEnd_trimEnd (s : Text) : trimEnd (trimEnd s) = trimEnd s :=
  List.rdropWhile_idempotent isBlank s

theorem isPrefix_trimEnd (s : Text) : trimEnd s <+: s := List.rdropWhile_prefix isBlank s

theorem trimEnd_append_of_blank (ht : Blank t) (s : Text) : trimEnd (s ++ t) = trimEnd s := by
  rw [trimEnd, List.reverse_append, List.dropWhile_append_of_pos fun c hc =>
    ht c (List.mem_reverse.mp hc)]
  rfl

/-- The last semicolon of the run ends the query without its blanks. -/
theorem getLast?_trimEnd_of_mem (h : ';' ∈ trailingRun s) : (trimEnd s).getLast? = some ';' := by
  have hne : trimEnd (trailingRun s) ≠ [] := fun hnil => by
    have hblank := List.rdropWhile_eq_nil_iff.mp hnil ';' h
    exact absurd hblank (by decide)
  rw [← rdropWhile_append_trailingRun s, getLast?_trimEnd_append hne]
  have hlast := List.rdropWhile_last_not isBlank _ hne
  have hmem : (trimEnd (trailingRun s)).getLast hne ∈ trailingRun s :=
    (isPrefix_trimEnd _).subset (List.getLast_mem hne)
  rw [List.getLast?_eq_getLast_of_ne_nil hne]
  exact congrArg some ((terminatorRun_trailingRun s _ hmem).resolve_right hlast)

theorem trimTerminator_append {gap gap' : Text} (hg : Blank gap) (hg' : Blank gap') (s : Text) :
    trimTerminator (s ++ (gap ++ ';' :: gap')) = trimEnd s := by
  have htrim : trimEnd (s ++ (gap ++ ';' :: gap')) = s ++ gap ++ [';'] := by
    rw [List.append_cons, ← List.append_assoc, ← List.append_assoc, trimEnd_append_of_blank hg',
      trimEnd_append_of_ne_nil (by decide)]
    rfl
  rw [trimTerminator, htrim, List.getLast?_concat]
  change trimEnd (s ++ gap ++ [';']).dropLast = trimEnd s
  rw [List.dropLast_concat, trimEnd_append_of_blank hg]

/-- Trimming a query takes one semicolon from its run. -/
theorem count_trailingRun_trimTerminator (sql : Text) :
    (trailingRun (trimTerminator sql)).count ';' = (trailingRun sql).count ';' - 1 := by
  by_cases hlast : (trimEnd sql).getLast? = some ';'
  · obtain ⟨gap, gap', hsql, hg, hg'⟩ := exists_append_semicolon hlast
    have hrun : TerminatorRun (gap ++ ';' :: gap') :=
      IsTerminator.terminatorRun (Or.inr ⟨gap, gap', rfl, hg, hg'⟩)
    conv_rhs => rw [hsql, (trailingRun_append hrun _).1]
    rw [List.count_append, List.count_append, List.count_cons_self,
      List.count_eq_zero.mpr hg.not_mem_semicolon, List.count_eq_zero.mpr hg'.not_mem_semicolon]
    omega
  · have hnone : ';' ∉ trailingRun sql := fun hmem => hlast (getLast?_trimEnd_of_mem hmem)
    rw [trimTerminator_eq_self hlast, List.count_eq_zero.mpr hnone]

/-! ## Comments in front of the end -/

theorem lineOpenBefore_blank_iff : LineOpenBefore Blank s ↔ LineOpen (trimEnd s) := by
  constructor
  · rintro ⟨front, gap, rfl, hg, hopen⟩
    obtain ⟨gap', hfront, hg'⟩ := exists_trimEnd_append front
    rw [trimEnd_append_of_blank hg]
    rw [hfront] at hopen
    exact hopen.of_append_calm (Blank.calm hg')
  · intro hopen
    obtain ⟨gap, hs, hg⟩ := exists_trimEnd_append s
    exact ⟨trimEnd s, gap, hs, hg, hopen⟩

theorem lineOpenBefore_isTerminator_iff :
    LineOpenBefore IsTerminator sql ↔ LineOpen (trimTerminator sql) := by
  constructor
  · rintro ⟨front, rest, rfl, rfl | ⟨gap, gap', rfl, hg, hg'⟩, hopen⟩
    · obtain ⟨tail, hsql, htail⟩ := exists_append_terminator (front ++ [])
      rw [← List.append_nil front, hsql] at hopen
      exact hopen.of_append_calm htail.terminatorRun.calm
    · obtain ⟨gap'', hfront, hg''⟩ := exists_trimEnd_append front
      rw [trimTerminator_append hg hg']
      rw [hfront] at hopen
      exact hopen.of_append_calm (Blank.calm hg'')
  · intro hopen
    obtain ⟨tail, hsql, htail⟩ := exists_append_terminator sql
    exact ⟨trimTerminator sql, tail, hsql, htail, hopen⟩

/-- Behind a text that ends with neither a semicolon nor a blank only the comment that is open there
reaches into the run. -/
theorem lineOpenBefore_run_iff (ht : TerminatorRun t) (hs : trimEnd s = s)
    (hnone : ';' ∉ trailingRun s) : LineOpenBefore TerminatorRun (s ++ t) ↔ LineOpen s := by
  constructor
  · rintro ⟨front, rest, hsplit, hrest, hopen⟩
    rcases List.append_eq_append_iff.mp hsplit with ⟨r, rfl, rfl⟩ | ⟨r, rfl, rfl⟩
    · exact hopen.of_append_calm (TerminatorRun.calm fun c hc => ht c (by simp [hc]))
    · -- The part of the run that stands in front is blank, and there is none.
      have hr : TerminatorRun r := fun c hc => hrest c (by simp [hc])
      rw [(trailingRun_append hr front).1] at hnone
      have hblank : Blank r := fun c hc =>
        (hr c hc).resolve_left fun heq => hnone (List.mem_append_right _ (heq ▸ hc))
      rw [trimEnd_append_of_blank hblank] at hs
      have hlength := (isPrefix_trimEnd front).length_le
      rw [hs, List.length_append] at hlength
      obtain rfl : r = [] := List.eq_nil_of_length_eq_zero (by omega)
      rwa [List.append_nil]
  · intro hopen
    exact ⟨s, t, rfl, ht, hopen⟩

/-! ## Where more can be written -/

namespace SingleStatement

/-- No statement ends in front of a letter of the query. -/
theorem clean_of_letter (h : SingleStatement (s ++ c :: t)) (hc : isLetterAnyCase c = true) :
    Reading.start.clean s = true := by
  have hsplit := rdropWhile_append_trailingRun (s ++ c :: t)
  have hclean := h.clean
  generalize (s ++ c :: t).rdropWhile (fun c => c == ';' || isBlank c) = body at hsplit hclean
  rcases append_eq_append_cons hsplit with ⟨r, -, hrun⟩ | ⟨r, rfl⟩
  · have hmem : c ∈ trailingRun (s ++ c :: t) := by
      rw [hrun]
      simp
    rcases terminatorRun_trailingRun _ c hmem with rfl | hblank
    · exact absurd hc (by decide)
    · exact absurd (isBlank_of_letter hc) (by simp [hblank])
  · exact Reading.clean_of_isPrefix hclean (List.prefix_append s (c :: r))

/-- A query without some of its last semicolons and blanks is effective if no semicolon is left and
no comment of the line is open. -/
theorem effective_iff (h : SingleStatement (s ++ t)) (ht : TerminatorRun t)
    (hlast : ';' ∈ trailingRun s → s.getLast? = some ';') :
    Effective s ↔ (trailingRun s).count ';' = 0 ∧ ¬ LineOpen s := by
  constructor
  · intro heff
    refine ⟨List.count_eq_zero.mpr fun hmem => ?_, fun hopen => hopen.not_effective heff⟩
    · -- The last semicolon would end the statement, since no comment takes it in.
      obtain ⟨a, rfl⟩ := List.getLast?_eq_some_iff.mp (hlast hmem)
      have hcalm : Calm (';' :: t) := fun d hd => by
        rcases List.mem_cons.mp hd with rfl | hd
        · decide
        · exact ht.calm d hd
      obtain ⟨hdepth, hquotes⟩ := Reading.level_after_calm (Reading.marked_start a) hcalm
      rw [← Reading.after_append, List.append_cons] at hdepth hquotes
      have hmark : isQuoteMark ';' = false := by decide
      have hout := Scan.outside_of_isOutside (Reading.marked_start a) (hquotes h.quotes) hmark
      have hcomment : (Reading.start.after a).inComment = false := by
        rw [← Reading.inComment_after_calm (show Calm [';'] by decide) (by simp),
          ← Reading.after_append]
        exact heff.outside
      have hends : (Reading.start.after a).terminates ';' = true := by
        rw [Reading.terminates, hcomment, hout, ← hdepth, h.parens]
        rfl
      have hclean := heff.clean
      rw [Reading.clean_append, Reading.clean, hends, Bool.not_true, Bool.false_and,
        Bool.and_false] at hclean
      cases hclean
  · rintro ⟨hcount, hclosed⟩
    have hclean : Reading.start.clean s = true := by
      have hbody := h.clean
      rw [(trailingRun_append ht s).2] at hbody
      rw [← rdropWhile_append_trailingRun s, Reading.clean_append, hbody,
        Reading.clean_of_not_mem (List.count_eq_zero.mp hcount)]
      rfl
    refine ⟨hclean, ?_⟩
    -- A comment of several lines would still be open at the end of the query.
    have hline : (Reading.start.after s).comment ≠ .line := fun hline =>
      hclosed (lineOpen_iff.mpr hline)
    obtain ⟨hblock, hstar⟩ := h.comments
    rw [← Reading.inComment_after_calm ht.calm fun hopen => absurd hopen hline]
    have hend := Reading.ne_line_after_calm hline ht.calm
    rw [← Reading.after_append] at hend ⊢
    cases hcomment : (Reading.start.after (s ++ t)).comment with
    | none | dash | slash => rw [Reading.inComment, hcomment]
    | line => exact absurd hcomment hend
    | block => exact absurd hcomment hblock
    | star => exact absurd hcomment hstar

/-- Behind the query without its terminator. -/
theorem effective_trimTerminator_iff (h : SingleStatement sql) :
    Effective (trimTerminator sql) ↔
      (trailingRun sql).count ';' ≤ 1 ∧ ¬ LineOpenBefore IsTerminator sql := by
  obtain ⟨tail, hsql, htail⟩ := exists_append_terminator sql
  have hlast : ';' ∈ trailingRun (trimTerminator sql) →
      (trimTerminator sql).getLast? = some ';' := fun hmem => by
    have hend := getLast?_trimEnd_of_mem hmem
    by_cases hcut : (trimEnd sql).getLast? = some ';'
    · obtain ⟨gap, gap', hsplit, hg, hg'⟩ := exists_append_semicolon hcut
      have hends := trimTerminator_append hg hg' (trimTerminator sql)
      rw [← hsplit] at hends
      rwa [← hends] at hend
    · rw [trimTerminator_eq_self hcut] at hend
      exact absurd hend hcut
  rw [hsql] at h
  rw [h.effective_iff htail.terminatorRun hlast, count_trailingRun_trimTerminator,
    lineOpenBefore_isTerminator_iff, Nat.sub_eq_zero_iff_le]

/-- Behind what two trims leave, without its blanks. -/
theorem effective_iff_of_trimEnd (h : SingleStatement (s ++ t)) (ht : TerminatorRun t)
    (hs : trimEnd s = s)
    (hcount : (trailingRun s).count ';' = (trailingRun (s ++ t)).count ';' - 2) :
    Effective s ↔
      (trailingRun (s ++ t)).count ';' ≤ 2 ∧ ¬ LineOpenBefore TerminatorRun (s ++ t) := by
  have hlast : ';' ∈ trailingRun s → s.getLast? = some ';' := fun hmem => by
    have hend := getLast?_trimEnd_of_mem hmem
    rwa [hs] at hend
  rw [h.effective_iff ht hlast, hcount, Nat.sub_eq_zero_iff_le]
  refine and_congr_right fun hle => not_congr ?_
  have hnone : ';' ∉ trailingRun s := List.count_eq_zero.mp (by omega)
  exact (lineOpenBefore_run_iff ht hs hnone).symm

end SingleStatement

/-- Behind the part in front of a letter, without its blanks. -/
theorem effective_trimEnd_iff (h : Reading.start.clean s = true) :
    Effective (trimEnd s) ↔
      (Reading.start.after s).inComment = false ∧ ¬ LineOpenBefore Blank s := by
  obtain ⟨gap, hs, hg⟩ := exists_trimEnd_append s
  have hclean : Reading.start.clean (trimEnd s) = true :=
    Reading.clean_of_isPrefix h ⟨gap, hs.symm⟩
  have hsame (hclosed : ¬ LineOpen (trimEnd s)) :
      (Reading.start.after s).inComment = (Reading.start.after (trimEnd s)).inComment := by
    conv_lhs => rw [hs, Reading.after_append]
    exact Reading.inComment_after_calm (Blank.calm hg)
      fun hline => absurd (lineOpen_iff.mpr hline) hclosed
  rw [lineOpenBefore_blank_iff]
  constructor
  · intro heff
    have hclosed : ¬ LineOpen (trimEnd s) := fun hopen => hopen.not_effective heff
    exact ⟨(hsame hclosed).trans heff.outside, hclosed⟩
  · rintro ⟨hout, hclosed⟩
    exact ⟨hclean, (hsame hclosed).symm.trans hout⟩

end QuerySplice.Sql
