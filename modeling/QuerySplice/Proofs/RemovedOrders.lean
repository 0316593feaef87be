import Mathlib.Order.Bounds.Basic
import QuerySplice.Proofs.Additions
import QuerySplice.Proofs.InsertedClauses

/-!
# Removed orders

An order is cut out of a query from its keyword up to the first limit, settings or format behind it,
or up to the end. What stands in front of the cut and what stands behind it are read as before: the
scan is at its start on both sides, and no reader runs over the seam from one part into the other.

At the end of the query this has one exception. A long s is no character of a name for the text in
front of a keyword, and it is the last letter of `SETTINGS` in another case. A query in which the
order follows such a word directly gets settings when the order is removed, so the result is stated
for queries without a long s.
-/

namespace QuerySplice.Sql

open Text

variable {α : Type} {s t u v w sql : Text} {c : Clause} {l : Landmark} {p q r : Nat}

/-- Where something begins behind an order at `p` that is not removed with it. -/
def orderEnds (p : Nat) (sql : Text) : Set Nat :=
  {q | p < q ∧ ∃ l ∈ Clause.order.after, (l, q) ∈ occurrences sql}

/-- Places counted from `n` characters further to the right. -/
def unshift (n : Nat) (ps : List (α × Nat)) : List (α × Nat) := ps.map fun q => (q.1, q.2 - n)

theorem unshift_shift (m n : Nat) (ps : List (α × Nat)) :
    unshift n (shift (m + n) ps) = shift m ps := by
  rw [unshift, shift, shift, List.map_map]
  refine List.map_congr_left fun q _ => ?_
  show (q.1, q.2 + (m + n) - n) = (q.1, q.2 + m)
  rw [← Nat.add_assoc, Nat.add_sub_cancel]

/-! ## The end of the text in front of an order -/

/-- Only a long s is an s in another case and no character of a plain name. -/
theorem eq_long_s_of_letterKey {d : Char} (hkey : letterKey d = 0x73)
    (hplain : isNameChar d = false) : d = '\u017f' := by
  have hascii : ∀ n < 128, letterKey (Char.ofNat n) = 0x73 → isNameChar (Char.ofNat n) = true := by
    decide
  rw [← Char.ofNat_toNat d] at hkey hplain ⊢
  have hcases := toNat_of_letterKey_lt (c := d) (by rw [← Char.ofNat_toNat d, hkey]; decide)
  rcases hcases with hlt | heq | heq | heq | heq
  · exact absurd (hascii _ hlt hkey) (Bool.eq_false_iff.mp hplain)
  · exact absurd hkey (by rw [heq]; decide)
  · exact absurd hkey (by rw [heq]; decide)
  · rw [heq]
  · exact absurd hkey (by rw [heq]; decide)

/-- A text that ends in no character of a plain name and in no long s ends in no word. -/
theorem not_endsInWord (hs : ∀ d ∈ s.getLast?, isNameChar d = false) (hlong : '\u017f' ∉ s) :
    ¬ EndsInWord s := by
  rintro ⟨d, hd, word, hword, w, hw, hsame⟩
  have hlast : (vocabulary.all fun word =>
      word.getLast?.all fun w => smallForm w != 0x69 && smallForm w != 0x6B) = true := by decide
  have hletter := List.all_eq_true.mp hlast word hword
  rw [Option.mem_def.mp hw, Option.all_some] at hletter
  obtain ⟨hi, hk⟩ : smallForm w ≠ 0x69 ∧ smallForm w ≠ 0x6B := by simpa using hletter
  have halpha := (isWord_of_mem_vocabulary hword).2 w (List.mem_of_getLast? hw)
  have hascii := toNat_lt_of_isAlpha halpha
  have hsmall : smallForm w = 0x73 := by
    simpa [hi, hk] using
      smallForm_of_not_isNameChar (isNameChar_of_isAlpha halpha) hascii (hs d hd) hsame
  have hkey : letterKey d = 0x73 := ((sameLetter_iff hascii d).mp hsame).trans hsmall
  obtain rfl := eq_long_s_of_letterKey hkey (hs d hd)
  exact hlong (List.mem_of_getLast? hd)

/-- In front of a landmark such a text is read as at its end. -/
theorem Scan.Ready.alike_nil (hu : (Scan.start.after u).Ready) (hlong : '\u017f' ∉ u)
    (ht : Headed t) : Alike u t [] :=
  ⟨(alike_of_headed hu.not_isNameChar ht ht).left, (alike_seam fresh_nil u).right,
    fun h => absurd h (not_endsInWord hu.not_isNameChar hlong)⟩

theorem Scan.Ready.append (hu : (Scan.start.after u).Ready) (hs : (Scan.start.after s).Ready)
    (hquote : nextIs isQuoteMark s = false) : (Scan.start.after (u ++ s)).Ready := by
  by_cases hne : s = []
  · rwa [hne, List.append_nil]
  · rwa [hu.after_append hquote hne]

/-- What ends an order stands behind its start. -/
theorem pos_of_mem_order_after (h : (Landmark.clause .order).startsAt s = true)
    (hl : l ∈ Clause.order.after) (hmem : (l, r) ∈ occurrences s) : 0 < r := by
  refine Nat.pos_of_ne_zero ?_
  rintro rfl
  have hmark := mem_marks_of_mem_placesFrom hmem
  rw [landmarks_eq_singleton h, List.mem_singleton] at hmark
  subst hmark
  exact absurd hl (by decide)

/-! ## The two parts of a query at a landmark -/

section Parts

variable (hu : (Scan.start.after u).Ready) (hv : Headed v)

include hu hv

/-- The occurrences in front of a landmark do not depend on it, and those behind it are its own. -/
theorem placesAround_append :
    placesBefore u.length (occurrences (u ++ v)) =
        placesFrom (fun b => landmarks (b ++ v)) .start u ∧
      placesBehind u.length (occurrences (u ++ v)) = shift u.length (occurrences v) := by
  have hlt : ∀ q ∈ placesFrom (fun b => landmarks (b ++ v)) .start u, q.2 < u.length :=
    fun q => lt_length_of_mem_placesFrom
  rw [occurrences, hu.places_append hv.nextIs_isQuoteMark]
  exact ⟨placesBefore_append hlt _, placesBehind_append hlt _⟩

/-- The query goes on with another landmark as it does with this one. -/
theorem occurrences_replace (hw : Headed w) :
    occurrences (u ++ w) =
      placesBefore u.length (occurrences (u ++ v)) ++ shift u.length (occurrences w) := by
  have halike : Alike u w v := alike_of_headed hu.not_isNameChar hw hv
  rw [(placesAround_append hu hv).1, occurrences, hu.places_append hw.nextIs_isQuoteMark,
    wordMarks_landmarks.placesFrom_cut halike]
  rfl

/-- What stands between the landmark and one behind it is cut out, and what is found behind the cut
moves left. -/
theorem occurrences_cut_out (hfirst : firstPosition? c.followingKeywords v = some r) :
    occurrences (u ++ v.drop r) = placesBefore u.length (occurrences (u ++ v)) ++
      unshift r (placesBehind (u.length + r) (occurrences (u ++ v))) := by
  obtain ⟨a, w, l, rfl, rfl, ha, -, hw⟩ := firstPosition?_eq_some hfirst
  have hua := hu.append ha (nextIs_of_append hv.nextIs_isQuoteMark)
  have hbehind := (placesAround_append hua (Landmark.headed hw)).2
  rw [List.append_assoc, List.length_append] at hbehind
  rw [List.drop_left, hbehind, unshift_shift]
  exact occurrences_replace hu hv (Landmark.headed hw)

/-- The query ends as it does in front of the landmark. -/
theorem occurrences_cut (hlong : '\u017f' ∉ u) :
    occurrences (trimEnd u) = placesBefore u.length (occurrences (u ++ v)) := by
  have hkept : placesFrom (fun b => landmarks (b ++ v)) .start u = occurrences u := by
    have hcut := wordMarks_landmarks.placesFrom_cut (hu.alike_nil hlong hv) .start
    simp only [List.append_nil] at hcut
    exact hcut
  obtain ⟨gap, hgap, hblank⟩ := exists_trimEnd_append u
  rw [(placesAround_append hu hv).1, hkept]
  conv_rhs => rw [hgap]
  exact (wordMarks_landmarks.places_append_blank hblank _).symm

/-- What is no order stands in `v` where it stands behind the order in the whole query. -/
theorem mem_orderEnds_append (horder : (Landmark.clause .order).startsAt v = true) :
    q ∈ orderEnds u.length (u ++ v) ↔
      ∃ r, q = u.length + r ∧ ∃ l ∈ Clause.order.after, (l, r) ∈ occurrences v := by
  constructor
  · rintro ⟨hlt, l, hl, hmem⟩
    rw [occurrences, hu.places_append hv.nextIs_isQuoteMark] at hmem
    rcases List.mem_append.mp hmem with hmem | hmem
    · have := lt_length_of_mem_placesFrom hmem
      omega
    · obtain ⟨⟨l', r⟩, hr, heq⟩ := mem_shift.mp hmem
      obtain ⟨rfl, rfl⟩ := Prod.mk.inj heq
      exact ⟨r, Nat.add_comm .., l', hl, hr⟩
  · rintro ⟨r, rfl, l, hl, hr⟩
    have hpos := pos_of_mem_order_after horder hl hr
    refine ⟨by omega, l, hl, ?_⟩
    rw [Nat.add_comm]
    exact mem_occurrences_append hu hv.nextIs_isQuoteMark hr

/-- The finder that starts at the order finds the least of its ends. -/
theorem firstPosition?_of_isLeast (horder : (Landmark.clause .order).startsAt v = true)
    (hq : IsLeast (orderEnds u.length (u ++ v)) q) :
    ∃ r, q = u.length + r ∧ firstPosition? Clause.order.followingKeywords v = some r := by
  obtain ⟨r, rfl, l, hl, hr⟩ := (mem_orderEnds_append hu hv horder).mp hq.1
  obtain ⟨r', hfirst, hle⟩ := firstPosition?_le hr hl
  have hleast := hq.2 ((mem_orderEnds_append hu hv horder).mpr
    ⟨r', rfl, mem_of_firstPosition? hfirst⟩)
  obtain rfl : r' = r := by omega
  exact ⟨r', rfl, hfirst⟩

theorem firstPosition?_of_no_end (horder : (Landmark.clause .order).startsAt v = true)
    (hnone : orderEnds u.length (u ++ v) = ∅) :
    firstPosition? Clause.order.followingKeywords v = none := by
  cases hfirst : firstPosition? Clause.order.followingKeywords v with
  | none => rfl
  | some r =>
      have hmem := (mem_orderEnds_append hu hv horder).mpr ⟨r, rfl, mem_of_firstPosition? hfirst⟩
      exact (Set.notMem_empty _ (hnone ▸ hmem)).elim

end Parts

/-! ## Removing an order -/

/-- A removed order leaves a shorter query. -/
theorem length_removeOrder_lt (h : Clause.order.position? sql = some p) :
    (removeOrder sql).length < sql.length := by
  obtain ⟨u, v, htrim, rfl, -, hv⟩ := Clause.exists_trimTerminator_append h
  obtain ⟨tail, hsql, -⟩ := exists_append_terminator sql
  have hlength : sql.length = u.length + v.length + tail.length := by
    rw [← List.length_append, ← htrim, ← List.length_append, ← hsql]
  obtain ⟨d, v, rfl, -⟩ := (Landmark.headed hv).exists_cons
  rw [removeOrder_of_split h htrim]
  cases hfirst : firstPosition? Clause.order.followingKeywords (d :: v) with
  | some r =>
      obtain ⟨l, hl, hmem⟩ := mem_of_firstPosition? hfirst
      have hpos := pos_of_mem_order_after hv hl hmem
      simp only [List.length_append, List.length_drop, List.length_cons] at hlength ⊢
      omega
  | none =>
      have := (isPrefix_trimEnd u).length_le
      simp only [List.length_cons] at hlength ⊢
      omega

/-- Only a query without an order is left as it is. -/
theorem removeOrder_eq_self_iff :
    removeOrder sql = sql ↔ ∀ o ∈ occurrences sql, o.1 ≠ .clause .order := by
  have hnone : Clause.order.position? sql = none ↔ ∀ o ∈ occurrences sql, o.1 ≠ .clause .order := by
    rw [Clause.position?_eq_find?, Option.map_eq_none_iff, List.find?_eq_none]
    simp only [List.contains_cons, List.contains_nil, Bool.or_false, beq_iff_eq, ne_eq]
  rw [← hnone]
  cases h : Clause.order.position? sql with
  | none => simp [removeOrder, h]
  | some p =>
      have hlt := length_removeOrder_lt h
      refine ⟨fun heq => ?_, fun hsome => by cases hsome⟩
      rw [heq] at hlt
      omega

/-- The clause that is found is the first of its kind. -/
theorem Clause.position?_le (h : c.position? sql = some p)
    (hmem : (.clause c, q) ∈ occurrences sql) : p ≤ q := by
  have hwords : c.keyword.words.isEmpty = false := by cases c <;> rfl
  rw [Clause.position?, Keyword.position?, hwords, if_neg (by simp)] at h
  obtain ⟨a, b, d, hsplit, hlength, htop, hmark⟩ := mem_placesFrom_iff.mp hmem
  exact (firstFrom_eq_some_iff.mp h).2 ⟨a, d, b, hsplit, hlength, htop, mem_landmarks.mp hmark⟩

/-- An order is cut out as one piece, up to the first clause behind it that follows an order or up
to the end of the query. What is found in the rest is what was found outside that piece, and a
second removal changes the rest only where an order is left in it. -/
theorem occurrences_removeOrder (hp : Clause.order.position? sql = some p)
    (hlong : '\u017f' ∉ sql) :
    (∀ q, IsLeast (orderEnds p (trimTerminator sql)) q →
      removeOrder sql = (trimTerminator sql).take p ++ (trimTerminator sql).drop q ∧
        occurrences (removeOrder sql) =
          placesBefore p (occurrences sql) ++ unshift (q - p) (placesBehind q (occurrences sql)) ∧
        (removeOrder (removeOrder sql) = removeOrder sql ↔
          ∀ o ∈ placesBehind q (occurrences sql), o.1 ≠ .clause .order)) ∧
    (orderEnds p (trimTerminator sql) = ∅ →
      removeOrder sql = trimEnd ((trimTerminator sql).take p) ∧
        occurrences (removeOrder sql) = placesBefore p (occurrences sql) ∧
        removeOrder (removeOrder sql) = removeOrder sql) := by
  -- No order stands in front of the first one, so what is removed a second time was kept behind it.
  have hbefore : ∀ o ∈ placesBefore p (occurrences sql), o.1 ≠ .clause .order := by
    rintro ⟨l, r⟩ ho rfl
    obtain ⟨hmem, hlt⟩ := List.mem_filter.mp ho
    exact absurd (Clause.position?_le hp hmem) (Nat.not_le.mpr (of_decide_eq_true hlt))
  obtain ⟨u, v, htrim, rfl, hu, hv⟩ := Clause.exists_trimTerminator_append hp
  have hheaded := Landmark.headed hv
  have hwhole := occurrences_trimTerminator sql
  have hresult := removeOrder_of_split hp htrim
  rw [htrim] at hwhole ⊢
  rw [← hwhole] at hbefore ⊢
  constructor
  · intro q hq
    obtain ⟨r, rfl, hfirst⟩ := firstPosition?_of_isLeast hu hheaded hv hq
    rw [hfirst] at hresult
    have hoccurrences : occurrences (removeOrder sql) = _ :=
      (congrArg occurrences hresult).trans (occurrences_cut_out hu hheaded hfirst)
    rw [Nat.add_sub_cancel_left]
    refine ⟨?_, hoccurrences, ?_⟩
    · rw [hresult, List.take_left, List.drop_length_add_append]
    · rw [removeOrder_eq_self_iff, hoccurrences]
      simp only [List.forall_mem_append, unshift, List.forall_mem_map]
      exact and_iff_right hbefore
  · intro hnone
    rw [firstPosition?_of_no_end hu hheaded hv hnone] at hresult
    have hlong' : '\u017f' ∉ u := by
      obtain ⟨tail, hsql, -⟩ := exists_append_terminator sql
      intro hmem
      refine hlong ?_
      rw [hsql, htrim]
      simp [hmem]
    have hoccurrences : occurrences (removeOrder sql) =
        placesBefore u.length (occurrences (u ++ v)) := by
      rw [hresult]
      exact occurrences_cut hu hheaded hlong'
    refine ⟨by rw [hresult, List.take_left], hoccurrences, ?_⟩
    rw [removeOrder_eq_self_iff, hoccurrences]
    exact hbefore

/-- A query with a limit for each group between two orders, with settings whose value is never
closed, and with a semicolon in a literal that is not either. -/
def reorderedSample : Text :=
  "SELECT ORDER BY 'LIMIT 1' limit 2 by b ORDER BY c SETTINGS d = (';".toList

/-- The first order goes, and the limit for each group, the second order and the settings stay.
Without anything behind it an order goes with the blanks in front of it. -/
theorem occurrences_removeOrder_reorderedSample :
    Clause.order.position? reorderedSample = some 7 ∧ '\u017f' ∉ reorderedSample ∧
      IsLeast (orderEnds 7 (trimTerminator reorderedSample)) 26 ∧
      removeOrder reorderedSample =
        "SELECT limit 2 by b ORDER BY c SETTINGS d = ('".toList ∧
      occurrences (removeOrder reorderedSample) =
        [(.perGroup, 7), (.clause .order, 20), (.clause .settings, 31)] ∧
      removeOrder (removeOrder reorderedSample) ≠ removeOrder reorderedSample ∧
      Clause.order.position? "LIMIT 1\t ORDER BY a;".toList = some 9 ∧
      orderEnds 9 (trimTerminator "LIMIT 1\t ORDER BY a;".toList) = ∅ ∧
      removeOrder "LIMIT 1\t ORDER BY a;".toList = "LIMIT 1".toList ∧
      removeOrder (removeOrder "LIMIT 1\t ORDER BY a;".toList) =
        removeOrder "LIMIT 1\t ORDER BY a;".toList := by
  have hposition : Clause.order.position? reorderedSample = some 7 := by decide
  have hlong : '\u017f' ∉ reorderedSample := by decide
  have hleast : IsLeast (orderEnds 7 (trimTerminator reorderedSample)) 26 := by
    have hall : ∀ o ∈ occurrences (trimTerminator reorderedSample), 7 < o.2 → 26 ≤ o.2 := by
      decide
    exact ⟨⟨by decide, .perGroup, by decide, by decide⟩, fun q ⟨hlt, l, _, hmem⟩ => hall _ hmem hlt⟩
  have hposition' : Clause.order.position? "LIMIT 1\t ORDER BY a;".toList = some 9 := by decide
  have hnone : orderEnds 9 (trimTerminator "LIMIT 1\t ORDER BY a;".toList) = ∅ := by
    have hall : ∀ o ∈ occurrences (trimTerminator "LIMIT 1\t ORDER BY a;".toList), o.2 ≤ 9 := by
      decide
    exact Set.eq_empty_of_forall_notMem fun q ⟨hlt, l, _, hmem⟩ =>
      absurd (hall _ hmem) (Nat.not_le.mpr hlt)
  obtain ⟨htext, hoccurrences, htwice⟩ := (occurrences_removeOrder hposition hlong).1 26 hleast
  obtain ⟨htext', -, htwice'⟩ := (occurrences_removeOrder hposition' (by decide)).2 hnone
  refine ⟨hposition, hlong, hleast, ?_, ?_, ?_, hposition', hnone, ?_, htwice'⟩
  · rw [htext]
    decide
  · rw [hoccurrences]
    decide
  · rw [ne_eq, htwice]
    decide
  · rw [htext']
    decide

/-- Letters that end in a long s are settings where they end the query, and no settings where an
order follows them directly. -/
example :
    occurrences "SETTING\u017fORDER BY a".toList = [(.clause .order, 8)] ∧
      occurrences (removeOrder "SETTING\u017fORDER BY a".toList) = [(.clause .settings, 0)] := by
  decide

end QuerySplice.Sql
