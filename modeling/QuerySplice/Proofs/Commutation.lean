import QuerySplice.Proofs.Aggregates

/-!
# The two injections commute

An order goes in front of everything a limit goes in front of, and in front of the limit itself. So
each injection finds its place again when the other one came first. Neither changes whether the
query takes the other clause: an order is no limit and a limit no order, a query begins with
`SELECT` as before, and it is a plain aggregate as before.
-/

namespace QuerySplice.Sql

open Text

variable {s u v x y sql : Text} {c : Clause} {n : Int} {column : Text} {order : Order}

/-! ## What an insertion keeps -/

theorem hasClause_insertBefore_of_ne {d : Clause} (hx : Introduces (.clause c) x) (hs : Level s)
    (hne : c ≠ d) : hasClause d (insertBefore c.followingKeywords x s) = hasClause d s := by
  have hlandmark : Landmark.clause c ≠ .clause d := fun h => hne (Landmark.clause.inj h)
  cases hfirst : firstPosition? c.followingKeywords s with
  | none => rw [insertBefore_of_none hfirst, hx.hasClause_append hs hlandmark]
  | some p =>
      obtain ⟨u, v, l, rfl, rfl, hu, -, hv⟩ := firstPosition?_eq_some hfirst
      rw [insertBefore_of_some hfirst, hx.hasClause_insert hu (Landmark.headed hv) hlandmark]

theorem isSelect_of_headed (h : Headed (trimStart s)) : isSelect s = false := by
  have hdiffer : ∀ word ∈ landmarkWords, differ word "SELECT".toList = true := by decide
  obtain ⟨word, hword, w, rest, htext, hw⟩ := h
  have hnone := readWord_eq_none_of_differ (isWord_of_mem_landmarkWords hword).ascii
    (show IsWord "SELECT".toList by decide).ascii (hdiffer word hword) hw rest
  rw [isSelect, htext, hnone]

theorem Headed.trimStart_eq (h : Headed s) : trimStart s = s := by
  obtain ⟨d, r, rfl, hd⟩ := h.exists_cons
  exact trimStart_append blank_nil (isBlank_of_letter hd)

/-- A query begins with `SELECT` after a clause is put into it exactly when it did before. -/
theorem isSelect_insertBefore (hx : Headed x) (s : Text) :
    isSelect (insertBefore c.followingKeywords x s) = isSelect s := by
  cases hfirst : firstPosition? c.followingKeywords s with
  | none =>
      rw [insertBefore_of_none hfirst]
      by_cases hne : trimStart s = []
      · have hnew : trimStart (s ++ ' ' :: x) = x := by
          rw [trimStart_append_eq, if_pos hne]
          exact (List.dropWhile_cons_of_pos (by decide)).trans hx.trimStart_eq
        have hold : isSelect s = false := isSelect_of_not_letter (by rw [hne]; rfl)
        rw [hold, isSelect_of_headed (by rwa [hnew])]
      · simpa using isSelect_cut (alike_seam hx.fresh s) hne
  | some p =>
      obtain ⟨u, v, l, rfl, rfl, hu, -, hstarts⟩ := firstPosition?_eq_some hfirst
      have hv := Landmark.headed hstarts
      have hxv : Headed (x ++ ' ' :: v) := hx.append _
      rw [insertBefore_of_some hfirst]
      by_cases hne : trimStart u = []
      · have hblank {t : Text} (ht : Headed t) : isSelect (u ++ t) = false := by
          apply isSelect_of_headed
          rwa [trimStart_append_eq, if_pos hne, ht.trimStart_eq]
        rw [hblank hv, hblank hxv]
      · exact isSelect_cut (alike_of_headed hu.not_isNameChar hxv hv) hne

theorem isPlainAggregate_insertBefore (hn : 0 < n) (hs : Level s) :
    isPlainAggregate (insertBefore Clause.limit.followingKeywords (limitClause n) s) =
      isPlainAggregate s := by
  cases hfirst : firstPosition? Clause.limit.followingKeywords s with
  | none => rw [insertBefore_of_none hfirst, isPlainAggregate_append hn hs]
  | some p =>
      obtain ⟨u, v, l, rfl, rfl, hu, hl, hv⟩ := firstPosition?_eq_some hfirst
      rw [insertBefore_of_some hfirst, isPlainAggregate_insert hn hu hl hv]

theorem Headed.trimEnd_ne_nil (h : Headed s) : trimEnd s ≠ [] := by
  obtain ⟨d, r, rfl, hd⟩ := h.exists_cons
  intro hnil
  obtain ⟨tail, htext, hblank⟩ := exists_trimEnd_append (d :: r)
  rw [hnil, List.nil_append] at htext
  have := hblank d (htext ▸ List.mem_cons_self)
  rw [isBlank_of_letter hd] at this
  cases this

/-- A query without a terminator has none after a clause is put into it. -/
theorem trimTerminator_insertBefore (hx : x ≠ []) (hclean : EndsClean x)
    (hs : (trimEnd s).getLast? ≠ some ';') :
    trimTerminator (insertBefore c.followingKeywords x s) =
      insertBefore c.followingKeywords x s := by
  cases hfirst : firstPosition? c.followingKeywords s with
  | none =>
      have hsplit : s ++ ' ' :: x = (s ++ [' ']) ++ x := by simp
      rw [insertBefore_of_none hfirst, hsplit]
      exact ((endsClean_append_iff hx _).mpr hclean).trimTerminator_eq
  | some p =>
      obtain ⟨u, v, l, rfl, rfl, -, -, hv⟩ := firstPosition?_eq_some hfirst
      have hne := (Landmark.headed hv).trimEnd_ne_nil
      have hsplit : u ++ (x ++ ' ' :: v) = (u ++ (x ++ [' '])) ++ v := by simp
      rw [insertBefore_of_some hfirst]
      apply trimTerminator_eq_self
      rw [hsplit, getLast?_trimEnd_append hne]
      rwa [getLast?_trimEnd_append hne] at hs

/-! ## The places of both clauses -/

theorem mem_order_after_of_mem_limit_after {l : Landmark} (h : l ∈ Clause.limit.after) :
    l ∈ Clause.order.after := by
  have hall : ∀ l ∈ Clause.limit.after, l ∈ Clause.order.after := by decide
  exact hall l h

/-- Behind a limit, the place for an order is where it was. -/
theorem firstPosition?_order_insert (hx : Introduces (.clause .limit) x)
    (hu : (Scan.start.after u).Ready) (hv : Headed v) {p : Nat} (hp : p ≤ u.length)
    (hfirst : firstPosition? Clause.order.followingKeywords (u ++ v) = some p) :
    firstPosition? Clause.order.followingKeywords (u ++ (x ++ ' ' :: v)) = some p := by
  obtain ⟨before, behind, hold, hnew, -⟩ := hx.occurrences_insert hu hv
  have hlimit : Clause.order.after.contains (Landmark.clause .limit) = true := by decide
  rw [firstPosition?_eq_find?, hold, List.find?_append,
    find?_shift fun l => Clause.order.after.contains l] at hfirst
  rw [firstPosition?_eq_find?, hnew, List.find?_append, List.find?_cons, hlimit]
  cases hbefore : before.find? fun q => Clause.order.after.contains q.1 with
  | some q =>
      rw [hbefore, Option.some_or] at hfirst
      rw [Option.some_or]
      exact hfirst
  | none =>
      rw [hbefore, Option.none_or] at hfirst
      obtain ⟨q, hq, rfl⟩ := Option.map_eq_some_iff.mp hfirst
      obtain ⟨r, -, rfl⟩ := Option.map_eq_some_iff.mp hq
      rw [Option.none_or, Option.map_some, Option.some.injEq]
      exact Nat.le_antisymm (Nat.le_add_left _ _) hp

/-- In front of what an order goes in front of, the place for a limit moves by the order. -/
theorem firstPosition?_limit_insert (hx : Introduces (.clause .order) x)
    (hu : (Scan.start.after u).Ready) (hv : Headed v)
    (hfirst : firstPosition? Clause.order.followingKeywords (u ++ v) = some u.length) :
    ∃ place : Option Nat,
      firstPosition? Clause.limit.followingKeywords (u ++ v) = place.map (u.length + ·) ∧
        firstPosition? Clause.limit.followingKeywords (u ++ (x ++ ' ' :: v)) =
          place.map (u.length + (x.length + 1) + ·) := by
  obtain ⟨before, behind, hold, hnew, hlt⟩ := hx.occurrences_insert hu hv
  have horder : Clause.limit.after.contains (Landmark.clause .order) = false := by decide
  have hquiet : before.find? (fun q => Clause.limit.after.contains q.1) = none := by
    rw [List.find?_eq_none]
    intro q hq hmem
    have hafter := mem_order_after_of_mem_limit_after (List.contains_iff_mem.mp hmem)
    rw [firstPosition?_eq_find?, hold, List.find?_append] at hfirst
    cases hbefore : before.find? fun q => Clause.order.after.contains q.1 with
    | none => exact List.find?_eq_none.mp hbefore q hq (List.contains_iff_mem.mpr hafter)
    | some r =>
        rw [hbefore, Option.some_or, Option.map_some, Option.some.injEq] at hfirst
        have := hlt r (List.mem_of_find?_eq_some hbefore)
        omega
  refine ⟨(behind.find? fun q => Clause.limit.after.contains q.1).map (·.2), ?_, ?_⟩
  · rw [firstPosition?_eq_find?, hold, List.find?_append, hquiet, Option.none_or,
      find?_shift fun l => Clause.limit.after.contains l]
    simp [Option.map_map, Function.comp_def, Nat.add_comm]
  · rw [firstPosition?_eq_find?, hnew, List.find?_append, hquiet, Option.none_or, List.find?_cons,
      horder]
    dsimp only
    rw [find?_shift fun l => Clause.limit.after.contains l]
    simp [Option.map_map, Function.comp_def, Nat.add_comm]

/-- Behind a query without anything an order goes in front of, both clauses go to the end. -/
theorem insertBefore_comm_of_none (hs : Level s) (hx : Introduces (.clause .order) x)
    (hy : Introduces (.clause .limit) y)
    (hfirst : firstPosition? Clause.order.followingKeywords s = none) :
    insertBefore Clause.limit.followingKeywords y
        (insertBefore Clause.order.followingKeywords x s) =
      insertBefore Clause.order.followingKeywords x
        (insertBefore Clause.limit.followingKeywords y s) := by
  have hquiet := firstPosition?_eq_none_iff.mp hfirst
  have hquiet' : ∀ q ∈ occurrences s, q.1 ∉ Clause.limit.after := fun q hq hl =>
    hquiet q hq (mem_order_after_of_mem_limit_after hl)
  have hlimit := firstPosition?_eq_none_iff.mpr hquiet'
  have hbehind : firstPosition? Clause.limit.followingKeywords (s ++ ' ' :: x) = none := by
    rw [firstPosition?_eq_none_iff, hx.occurrences_append hs]
    intro q hq hl
    rcases List.mem_append.mp hq with hq | hq
    · exact hquiet' q hq hl
    · obtain rfl := List.mem_singleton.mp hq
      exact absurd hl (show Landmark.clause .order ∉ Clause.limit.after by decide)
  have hinfront : firstPosition? Clause.order.followingKeywords ((s ++ [' ']) ++ y) =
      some (s ++ [' ']).length := by
    have hnone : (occurrences s).find? (fun q => Clause.order.after.contains q.1) = none := by
      rw [List.find?_eq_none]
      intro q hq hmem
      exact hquiet q hq (List.contains_iff_mem.mp hmem)
    have hcontains : Clause.order.after.contains (Landmark.clause .limit) = true := by decide
    rw [List.append_assoc, List.singleton_append, firstPosition?_eq_find?,
      hy.occurrences_append hs, List.find?_append, hnone, Option.none_or, List.find?_cons, hcontains]
    simp
  have hsplit : s ++ ' ' :: y = (s ++ [' ']) ++ y := by simp
  rw [insertBefore_of_none hfirst, insertBefore_of_none hbehind, insertBefore_of_none hlimit,
    hsplit, insertBefore_of_some hinfront]
  simp

/-- Two ways to split a text, the first one in front of the second. -/
theorem exists_append_of_le {a b u v : Text} (h : u ++ v = a ++ b) (hle : u.length ≤ a.length) :
    ∃ w, a = u ++ w ∧ v = w ++ b := by
  rcases List.append_eq_append_iff.mp h with ⟨w, hw, hrest⟩ | ⟨w, hw, hrest⟩
  · exact ⟨w, hw, hrest⟩
  · have hlength := congrArg List.length hw
    rw [List.length_append] at hlength
    obtain rfl := List.length_eq_zero_iff.mp (show w.length = 0 by omega)
    exact ⟨[], by simpa using hw.symm, by simpa using hrest.symm⟩

/-- In front of `v` an order has its place, and so has a limit in front of `t`. -/
theorem insertBefore_comm_of_some {t w : Text} (hx : Introduces (.clause .order) x)
    (hy : Introduces (.clause .limit) y) (hu : (Scan.start.after u).Ready) (hv : Headed (w ++ t))
    (hfirst : firstPosition? Clause.order.followingKeywords (u ++ (w ++ t)) = some u.length)
    (hlimit : firstPosition? Clause.limit.followingKeywords (u ++ (w ++ t)) =
      some (u.length + w.length)) :
    insertBefore Clause.limit.followingKeywords y
        (insertBefore Clause.order.followingKeywords x (u ++ (w ++ t))) =
      insertBefore Clause.order.followingKeywords x
        (insertBefore Clause.limit.followingKeywords y (u ++ (w ++ t))) := by
  have hassoc : u ++ (w ++ t) = (u ++ w) ++ t := (List.append_assoc u w t).symm
  have hlength : u.length + w.length = (u ++ w).length := List.length_append.symm
  have hlimit' : firstPosition? Clause.limit.followingKeywords ((u ++ w) ++ t) =
      some (u ++ w).length := by rw [← hassoc, hlimit, hlength]
  have hmoved : firstPosition? Clause.limit.followingKeywords ((u ++ (x ++ ' ' :: w)) ++ t) =
      some (u ++ (x ++ ' ' :: w)).length := by
    obtain ⟨place, hold, hnew⟩ := firstPosition?_limit_insert hx hu hv hfirst
    obtain ⟨q, hq, hqlength⟩ := Option.map_eq_some_iff.mp (hold.symm.trans hlimit)
    have hq' : q = w.length := Nat.add_left_cancel hqlength
    have htext : (u ++ (x ++ ' ' :: w)) ++ t = u ++ (x ++ ' ' :: (w ++ t)) := by simp
    rw [htext, hnew, hq, hq', Option.map_some, Option.some.injEq]
    simp only [List.length_append, List.length_cons]
    omega
  have hkept : firstPosition? Clause.order.followingKeywords (u ++ (w ++ (y ++ ' ' :: t))) =
      some u.length := by
    obtain ⟨u', t', l, htext, hlength', hu', -, ht⟩ := firstPosition?_eq_some hlimit'
    obtain ⟨rfl, rfl⟩ := List.append_inj htext hlength'.symm
    rw [← List.append_assoc]
    refine firstPosition?_order_insert hy hu' (Landmark.headed ht) ?_ (by rwa [← hassoc])
    rw [List.length_append]
    exact Nat.le_add_right _ _
  calc
    insertBefore Clause.limit.followingKeywords y
        (insertBefore Clause.order.followingKeywords x (u ++ (w ++ t)))
        = insertBefore Clause.limit.followingKeywords y ((u ++ (x ++ ' ' :: w)) ++ t) := by
      rw [insertBefore_of_some hfirst]
      simp
    _ = u ++ (x ++ ' ' :: (w ++ (y ++ ' ' :: t))) := by
      rw [insertBefore_of_some hmoved]
      simp
    _ = insertBefore Clause.order.followingKeywords x (u ++ (w ++ (y ++ ' ' :: t))) := by
      rw [insertBefore_of_some hkept]
    _ = insertBefore Clause.order.followingKeywords x
          (insertBefore Clause.limit.followingKeywords y (u ++ (w ++ t))) := by
      rw [hassoc, insertBefore_of_some hlimit', List.append_assoc u w]

/-- In front of `v` an order has its place, and a limit goes to the end. -/
theorem insertBefore_comm_of_end (hx : Introduces (.clause .order) x)
    (hy : Introduces (.clause .limit) y) (hs : Level (u ++ v)) (hu : (Scan.start.after u).Ready)
    (hv : Headed v)
    (hfirst : firstPosition? Clause.order.followingKeywords (u ++ v) = some u.length)
    (hlimit : firstPosition? Clause.limit.followingKeywords (u ++ v) = none) :
    insertBefore Clause.limit.followingKeywords y
        (insertBefore Clause.order.followingKeywords x (u ++ v)) =
      insertBefore Clause.order.followingKeywords x
        (insertBefore Clause.limit.followingKeywords y (u ++ v)) := by
  have hbehind : firstPosition? Clause.limit.followingKeywords (u ++ (x ++ ' ' :: v)) = none := by
    obtain ⟨place, hold, hnew⟩ := firstPosition?_limit_insert hx hu hv hfirst
    rw [Option.map_eq_none_iff.mp (hold.symm.trans hlimit)] at hnew
    exact hnew
  have hkept : firstPosition? Clause.order.followingKeywords (u ++ (v ++ ' ' :: y)) =
      some u.length := by
    have hold := firstPosition?_eq_find? .order (u ++ v)
    obtain ⟨q, hq, hlength⟩ := Option.map_eq_some_iff.mp (hold.symm.trans hfirst)
    rw [← List.append_assoc, firstPosition?_eq_find?, hy.occurrences_append hs, List.find?_append,
      hq, Option.some_or, Option.map_some, hlength]
  rw [insertBefore_of_some hfirst, insertBefore_of_none hbehind, insertBefore_of_none hlimit,
    List.append_assoc u v, insertBefore_of_some hkept]
  simp

/-- An order and a limit may be put into a level query one after the other or the other way
round. -/
theorem insertBefore_comm (hs : Level s) (hx : Introduces (.clause .order) x)
    (hy : Introduces (.clause .limit) y) :
    insertBefore Clause.limit.followingKeywords y
        (insertBefore Clause.order.followingKeywords x s) =
      insertBefore Clause.order.followingKeywords x
        (insertBefore Clause.limit.followingKeywords y s) := by
  cases hfirst : firstPosition? Clause.order.followingKeywords s with
  | none => exact insertBefore_comm_of_none hs hx hy hfirst
  | some p =>
      obtain ⟨u, v, l, rfl, rfl, hu, -, hstarts⟩ := firstPosition?_eq_some hfirst
      have hv := Landmark.headed hstarts
      cases hlimit : firstPosition? Clause.limit.followingKeywords (u ++ v) with
      | none => exact insertBefore_comm_of_end hx hy hs hu hv hfirst hlimit
      | some q =>
          obtain ⟨place, hold, -⟩ := firstPosition?_limit_insert hx hu hv hfirst
          obtain ⟨m, -, hm⟩ := Option.map_eq_some_iff.mp (hold.symm.trans hlimit)
          obtain ⟨u', t, l', htext, hlength, -, -, -⟩ := firstPosition?_eq_some hlimit
          have hle : u.length ≤ u'.length := by
            rw [hlength, ← hm]
            exact Nat.le_add_right _ _
          obtain ⟨w, rfl, rfl⟩ := exists_append_of_le htext hle
          refine insertBefore_comm_of_some hx hy hu hv hfirst ?_
          rw [hlimit, ← hlength, List.length_append]

/-! ## The injections -/

/-- The clause for an order on a column without backslashes. -/
theorem introduces_orderClause (hne : column ≠ []) (hplain : '\\' ∉ column) (order : Order) :
    Introduces (.clause .order) (orderClause column order.text) :=
  (Segment.order ⟨column, hne, hplain⟩ order.fragment).introduces

theorem endsClean_orderClause (hne : column ≠ []) (hplain : '\\' ∉ column) (order : Order) :
    EndsClean (orderClause column order.text) :=
  (Segment.order ⟨column, hne, hplain⟩ order.fragment).clean

theorem orderClause_ne_nil (column direction : Text) : orderClause column direction ≠ [] := by
  simp [orderClause_eq]

theorem limitClause_ne_nil (limit : Limit) : limitClause limit ≠ [] := by
  simp [limitClause_eq]

theorem insertBefore_ne_nil (keywords : List Keyword) (x s : Text) :
    insertBefore keywords x s ≠ [] := by
  have hlength := length_insertBefore keywords x s
  intro h
  rw [h] at hlength
  exact absurd hlength (by simp)

variable (hlevel : Level (trimTerminator sql))

include hlevel in
/-- An order that is injected changes nothing about whether the query takes a limit. -/
theorem takesLimit_injectOrder (hplain : '\\' ∉ column) (limit : Limit) (order : Order)
    (h : takesOrder column sql = true) :
    takesLimit limit (injectOrder column order.text sql) = takesLimit limit sql := by
  obtain ⟨hsql, hcolumn, -, -⟩ := takesOrder_iff.mp h
  have hx := introduces_orderClause hcolumn hplain order
  rw [injectOrder_of_takes h, Bool.eq_iff_iff, takesLimit_iff, takesLimit_iff,
    hasClause_insertBefore_of_ne hx hlevel (by decide), hasClause_trimTerminator,
    isSelect_insertBefore hx.headed, isSelect_trimTerminator]
  simp [hsql, insertBefore_ne_nil]

include hlevel in
/-- A limit that is injected changes nothing about whether the query takes an order. -/
theorem takesOrder_injectLimit (column : Text) (h : takesLimit n sql = true) :
    takesOrder column (injectLimit n sql) = takesOrder column sql := by
  obtain ⟨hsql, hpositive, -, -⟩ := takesLimit_iff.mp h
  have hn : 0 < n := of_decide_eq_true hpositive
  rw [injectLimit_of_takes h, Bool.eq_iff_iff, takesOrder_iff, takesOrder_iff,
    hasClause_insertBefore_of_ne (introduces_limitClause hn) hlevel (by decide),
    hasClause_trimTerminator, isPlainAggregate_insertBefore hn hlevel,
    isPlainAggregate_trimTerminator]
  simp [hsql, insertBefore_ne_nil]

/-- A limit and an order may be injected into a level query in either order, unless the query still
ends in a semicolon when its terminator is dropped. -/
theorem injectLimit_injectOrder_comm (n : Int) (column : Text) (order : Order) (sql : Text)
    (hplain : '\\' ∉ column) (hlevel : Level (trimTerminator sql))
    (hend : (trimEnd (trimTerminator sql)).getLast? ≠ some ';') :
    injectLimit n (injectOrder column order.text sql) =
      injectOrder column order.text (injectLimit n sql) := by
  cases horder : takesOrder column sql with
  | false =>
      rw [injectOrder_of_not_takes horder]
      cases hlimit : takesLimit n sql with
      | false => rw [injectLimit_of_not_takes hlimit, injectOrder_of_not_takes horder]
      | true =>
          rw [injectOrder_of_not_takes]
          rw [takesOrder_injectLimit hlevel column hlimit, horder]
  | true =>
      have hkept := takesLimit_injectOrder hlevel hplain n order horder
      cases hlimit : takesLimit n sql with
      | false =>
          rw [injectLimit_of_not_takes (hkept.trans hlimit), injectLimit_of_not_takes hlimit]
      | true =>
          obtain ⟨-, hcolumn, -, -⟩ := takesOrder_iff.mp horder
          have hn : 0 < n := of_decide_eq_true (takesLimit_iff.mp hlimit).2.1
          have hkept' := takesOrder_injectLimit hlevel column hlimit
          have hx := introduces_orderClause hcolumn hplain order
          have hclean := endsClean_orderClause hcolumn hplain order
          have hclean' : EndsClean (limitClause n) := endsClean_limitClause n []
          rw [injectLimit_of_takes (hkept.trans hlimit), injectOrder_of_takes (hkept'.trans horder),
            injectOrder_of_takes horder, injectLimit_of_takes hlimit,
            trimTerminator_insertBefore (orderClause_ne_nil _ _) hclean hend,
            trimTerminator_insertBefore (limitClause_ne_nil _) hclean' hend]
          exact insertBefore_comm hlevel hx (introduces_limitClause hn)

/-- A query with a limit for each group and settings. -/
def groupedSample : Text := "SELECT a LIMIT 1 BY a SETTINGS x = 1;".toList

/-- The order goes in front of both clauses of the sample and the limit between them, whichever is
injected first. -/
theorem injectLimit_injectOrder_comm_groupedSample :
    Level (trimTerminator groupedSample) ∧
      (trimEnd (trimTerminator groupedSample)).getLast? ≠ some ';' ∧
      injectLimit (.whole 5) (injectOrder ['t'] Order.descending.text groupedSample) =
        injectOrder ['t'] Order.descending.text (injectLimit (.whole 5) groupedSample) ∧
      injectOrder ['t'] Order.descending.text (injectLimit (.whole 5) groupedSample) =
        "SELECT a ORDER BY \"t\" DESC LIMIT 1 BY a LIMIT 5 SETTINGS x = 1".toList :=
  ⟨by decide, by decide,
    injectLimit_injectOrder_comm 5 ['t'] .descending groupedSample (by decide) (by decide)
      (by decide), by decide⟩

end QuerySplice.Sql
