import QuerySplice.Proofs.Terminators

/-!
# Projections and aggregates

The projection of a query is the slice between its first `SELECT` and the `FROM` behind it, both of
them places of the same scan. A clause that is inserted brings neither word, so a projection stays
the same or gets the clause into its text; and a clause in the text calls no aggregate and breaks up
no call, so a query is a plain aggregate after an insertion exactly when it was one before.
-/

namespace QuerySplice.Sql

open Text

variable {s t t' u v x b sql : Text} {words : List Text} {st : Scan}

/-! ## The slice between two keywords -/

/-- The keywords around a projection that the text starts with. -/
def bounds (s : Text) : List Keyword := keywordsAt [.select, .from] s

theorem wordMarks_bounds : WordMarks ["SELECT".toList, "FROM".toList] bounds :=
  wordMarks_keywordsAt (by decide : ∀ k ∈ [Keyword.select, .from], Readable k)

/-- Where the projection begins and ends, given the places of its keywords. -/
def span? : List (Keyword × Nat) → Option (Nat × Nat)
  | [] => none
  | (k, p) :: ps =>
    if k = .select then (ps.find? fun q => q.1 == .from).map fun q => (p + 6, q.2)
    else span? ps

/-- The text from one offset up to another. -/
def slice (sql : Text) (r : Nat × Nat) : Text := (sql.take r.2).drop r.1

theorem position?_eq_find?_bounds {k : Keyword} (hk : k ∈ [Keyword.select, .from]) (sql : Text) :
    k.position? sql = ((places bounds sql).find? fun p => p.1 == k).map (·.2) := by
  have hall : ∀ k ∈ [Keyword.select, .from], k.words.isEmpty = false := by decide
  exact Keyword.position?_eq_find? hk (hall k hk) sql

/-- Where `SELECT` stands: its six letters, and then no letter. -/
theorem exists_select_word (h : Keyword.select.startsAt s = true) :
    ∃ w body, s = w ++ body ∧ w.length = 6 ∧ Spells "SELECT".toList w ∧
      nextIs isLetterAnyCase body = false ∧ Keyword.select.length s = 6 := by
  obtain ⟨body, hread, hrefused⟩ := Keyword.rest?_of_startsAt h
  have hrest : Keyword.select.rest? s = some body := by
    rw [Keyword.rest?, hread, Option.filter_some, hrefused]
    rfl
  have hword : readWord "SELECT".toList s = some body := hread
  obtain ⟨w, rfl, hw⟩ := readWord_eq_some_iff.mp hword
  have hlength : w.length = 6 := hw.length_eq
  refine ⟨w, body, rfl, hlength, hw, ?_, ?_⟩
  · rw [Keyword.isRefused, Bool.or_eq_false_iff, Bool.or_eq_false_iff, continuesName_eq] at hrefused
    exact nextIs_letter_of_name hrefused.1.1
  · rw [Keyword.length, hrest]
    simp [hlength]

theorem places_bounds_select (h : Keyword.select.startsAt s = true) :
    ∃ w body, s = w ++ body ∧ w.length = 6 ∧ Keyword.select.length s = 6 ∧
      places bounds s = (.select, 0) :: shift 6 (places bounds body) := by
  obtain ⟨w, body, rfl, hlength, hw, hbody, hsix⟩ := exists_select_word h
  refine ⟨w, body, rfl, hlength, hsix, ?_⟩
  have hhere : bounds (w ++ body) = [.select] :=
    keywordsAt_eq_singleton (by decide) (by decide) (by decide) (by decide) h
  rw [wordMarks_bounds.places_word_append (by decide) (by decide) hw hbody, hhere, hlength]
  rfl

theorem span?_append_of_no_select {ps : List (Keyword × Nat)} (h : ∀ p ∈ ps, p.1 ≠ .select)
    (qs : List (Keyword × Nat)) : span? (ps ++ qs) = span? qs := by
  induction ps with
  | nil => rfl
  | cons p ps ih =>
      rw [List.cons_append, span?, if_neg (h p (by simp)), ih fun q hq => h q (by simp [hq])]

/-- The first `SELECT` of a query: no other one stands before it, and behind its six letters the
places are those of the text there. -/
theorem exists_select_split {p : Nat} (h : Keyword.select.position? sql = some p) :
    ∃ a w body before, sql = (a ++ w) ++ body ∧ a.length = p ∧ w.length = 6 ∧
      Keyword.select.length (w ++ body) = 6 ∧ (∀ q ∈ before, q.1 ≠ .select) ∧
      places bounds sql = before ++ (.select, p) :: shift (p + 6) (places bounds body) := by
  rw [position?_eq_find?_bounds (by decide)] at h
  obtain ⟨⟨k, p⟩, hfind, rfl⟩ := Option.map_eq_some_iff.mp h
  have hkey := List.find?_some hfind
  obtain rfl := beq_iff_eq.mp hkey
  obtain ⟨a, b, d, rfl, rfl, htop, hmarks⟩ :=
    mem_placesFrom_iff.mp (List.mem_of_find?_eq_some hfind)
  have hready := Scan.ready_of_topLevel htop
  have hmark : isQuoteMark d = false := ((topLevel_iff _ _).mp htop).1.2.1
  obtain ⟨w, body, htext, hlength, hsix, hplaces⟩ :=
    places_bounds_select (List.mem_filter.mp hmarks).2
  have hsplit : places bounds (a ++ d :: b) = _ := hready.places_append hmark
  rw [hplaces] at hsplit
  refine ⟨a, w, body, placesFrom (fun s => bounds (s ++ d :: b)) .start a, ?_, rfl, hlength, ?_,
    fun q hq hkey => ?_, ?_⟩
  · rw [htext, List.append_assoc]
  · rw [← htext, hsix]
  · -- a `SELECT` before this one would be the first that is found
    rw [hsplit, List.find?_append] at hfind
    cases hbefore : (placesFrom (fun s => bounds (s ++ d :: b)) Scan.start a).find?
        fun p => p.1 == Keyword.select with
    | none => exact List.find?_eq_none.mp hbefore q hq (beq_iff_eq.mpr hkey)
    | some r =>
        rw [hbefore, Option.some_or, Option.some.injEq] at hfind
        have hlt := lt_length_of_mem_placesFrom (List.mem_of_find?_eq_some hbefore)
        rw [hfind] at hlt
        exact absurd hlt (Nat.lt_irrefl _)
  · rw [hsplit]
    simp [shift, Nat.add_comm, Nat.add_left_comm]

/-- The projection is a slice of the query. -/
theorem projection?_eq (sql : Text) :
    projection? sql = (span? (places bounds sql)).map (slice sql) := by
  cases hp : Keyword.select.position? sql with
  | none =>
      have hselect := position?_eq_find?_bounds (k := .select) (by decide) sql
      rw [hp, eq_comm, Option.map_eq_none_iff, List.find?_eq_none] at hselect
      have hnone := span?_append_of_no_select
        (fun p hp heq => hselect p hp (beq_iff_eq.mpr heq)) []
      rw [List.append_nil] at hnone
      rw [projection?, hp, hnone]
      rfl
  | some p =>
      obtain ⟨a, w, body, before, rfl, rfl, hlength, hsix, hbefore, hplaces⟩ :=
        exists_select_split hp
      have hoffset : a.length + 6 = (a ++ w).length := by rw [List.length_append, hlength]
      have hbody : ((a ++ w) ++ body).drop (a.length + 6) = body := by
        rw [hoffset, List.drop_left]
      have hdrop : ((a ++ w) ++ body).drop a.length = w ++ body := by
        rw [List.append_assoc, List.drop_left]
      have hfrom := position?_eq_find?_bounds (k := .from) (by decide) body
      rw [hplaces, span?_append_of_no_select hbefore, span?, if_pos rfl,
        find?_shift (fun k => k == Keyword.from)]
      simp only [projection?, hp, hdrop, hsix, hbody, hfrom, bind, Option.bind_some, pure,
        Option.map_map]
      cases (places bounds body).find? fun p => p.1 == Keyword.from with
      | none => rfl
      | some q =>
          simp only [Option.map_some, Option.bind_some, Function.comp_apply, slice]
          rw [hoffset, List.drop_take, List.drop_left, Nat.add_sub_cancel]

/-! ## Projections under insertions -/

theorem mem_of_span? {ps : List (Keyword × Nat)} {r : Nat × Nat} (h : span? ps = some r) :
    ∃ p, (.select, p) ∈ ps ∧ r.1 = p + 6 ∧ (.from, r.2) ∈ ps := by
  induction ps with
  | nil => cases h
  | cons q ps ih =>
      obtain ⟨k, p⟩ := q
      rw [span?] at h
      split at h
      · next hk =>
          subst hk
          obtain ⟨⟨k, q⟩, hfind, rfl⟩ := Option.map_eq_some_iff.mp h
          have hkey := List.find?_some hfind
          obtain rfl := beq_iff_eq.mp hkey
          exact ⟨p, by simp, rfl, List.mem_cons_of_mem _ (List.mem_of_find?_eq_some hfind)⟩
      · obtain ⟨p, hp, hr, hq⟩ := ih h
        exact ⟨p, List.mem_cons_of_mem _ hp, hr, List.mem_cons_of_mem _ hq⟩

theorem span?_shift (n : Nat) (ps : List (Keyword × Nat)) :
    span? (shift n ps) = (span? ps).map fun r => (r.1 + n, r.2 + n) := by
  induction ps with
  | nil => rfl
  | cons q ps ih =>
      have hcons : shift n (q :: ps) = (q.1, q.2 + n) :: shift n ps := rfl
      rw [hcons, span?, span?]
      split
      · rw [find?_shift (fun k => k == Keyword.from)]
        simp [Option.map_map, Function.comp_def, Nat.add_right_comm]
      · exact ih

/-- When the places behind an offset move, a slice stays in front of it, moves with them, or has
its end moved only. -/
theorem span?_insert (before behind : List (Keyword × Nat)) (m n : Nat) :
    (span? (before ++ shift (m + n) behind) = span? (before ++ shift m behind) ∧
        ∀ r ∈ span? (before ++ shift m behind), (.from, r.2) ∈ before) ∨
      (∃ r : Nat × Nat, span? (before ++ shift m behind) = some (r.1 + m, r.2 + m) ∧
        span? (before ++ shift (m + n) behind) = some (r.1 + (m + n), r.2 + (m + n))) ∨
      ∃ p q, (.select, p) ∈ before ∧ span? (before ++ shift m behind) = some (p + 6, q + m) ∧
        span? (before ++ shift (m + n) behind) = some (p + 6, q + (m + n)) := by
  induction before with
  | nil =>
      simp only [List.nil_append, span?_shift]
      cases span? behind with
      | none => exact Or.inl ⟨rfl, fun r hr => by cases hr⟩
      | some r => exact Or.inr (Or.inl ⟨r, rfl, rfl⟩)
  | cons q before ih =>
      obtain ⟨k, p⟩ := q
      simp only [List.cons_append, span?]
      by_cases hk : k = Keyword.select
      · simp only [if_pos hk, List.find?_append, find?_shift (fun k => k == Keyword.from)]
        cases hfind : before.find? fun q => q.1 == Keyword.from with
        | some q =>
            refine Or.inl ⟨rfl, fun r hr => ?_⟩
            obtain rfl := Option.mem_some_iff.mp hr
            have hkey := List.find?_some hfind
            have hmem := List.mem_of_find?_eq_some hfind
            rw [← beq_iff_eq.mp hkey]
            exact List.mem_cons_of_mem _ hmem
        | none =>
            cases behind.find? fun q => q.1 == Keyword.from with
            | none => exact Or.inl ⟨rfl, fun r hr => by cases hr⟩
            | some q => exact Or.inr (Or.inr ⟨p, q.2, by simp [hk], rfl, rfl⟩)
      · simp only [if_neg hk]
        rcases ih with ⟨heq, hmem⟩ | hmove | ⟨p', q, hp, hold, hnew⟩
        · exact Or.inl ⟨heq, fun r hr => List.mem_cons_of_mem _ (hmem r hr)⟩
        · exact Or.inr (Or.inl hmove)
        · exact Or.inr (Or.inr ⟨p', q, List.mem_cons_of_mem _ hp, hold, hnew⟩)

theorem slice_append_of_le {r : Nat × Nat} (h : r.2 ≤ u.length) (t : Text) :
    slice (u ++ t) r = slice u r := by
  rw [slice, slice, List.take_append_of_le_length h]

theorem slice_append_add (u t : Text) (r : Nat × Nat) :
    slice (u ++ t) (r.1 + u.length, r.2 + u.length) = slice t r := by
  rw [slice, slice, Nat.add_comm r.2, Nat.add_comm r.1, List.take_length_add_append,
    List.drop_length_add_append]

theorem slice_append_of_le_of_add {p q : Nat} (h : p ≤ u.length) (t : Text) :
    slice (u ++ t) (p, q + u.length) = u.drop p ++ t.take q := by
  rw [slice, Nat.add_comm q, List.take_length_add_append, List.drop_append_of_le_length h]

/-- The projection when a text without its keywords is inserted: it stays the same, or has the text
inside. -/
theorem projection?_insert {before behind : List (Keyword × Nat)} {y : Text}
    (hselect : ∀ p, (.select, p) ∈ before → p + 6 ≤ u.length)
    (hlt : ∀ q ∈ before, q.2 < u.length)
    (hold : places bounds (u ++ v) = before ++ shift u.length behind)
    (hnew : places bounds (u ++ (y ++ v)) = before ++ shift (u.length + y.length) behind) :
    projection? (u ++ (y ++ v)) = projection? (u ++ v) ∨
      ∃ b q, b <:+ u ∧ projection? (u ++ v) = some (b ++ v.take q) ∧
        projection? (u ++ (y ++ v)) = some (b ++ (y ++ v.take q)) := by
  rw [projection?_eq, projection?_eq, hold, hnew]
  have hlength : u.length + y.length = (u ++ y).length := List.length_append.symm
  rcases span?_insert before behind u.length y.length with
    ⟨heq, hmem⟩ | ⟨r, holds, hnews⟩ | ⟨p, q, hp, holds, hnews⟩
  · refine Or.inl ?_
    rw [heq]
    cases hspan : span? (before ++ shift u.length behind) with
    | none => rfl
    | some r =>
        have hle : r.2 ≤ u.length := Nat.le_of_lt (hlt _ (hmem r hspan))
        rw [Option.map_some, Option.map_some, slice_append_of_le hle, slice_append_of_le hle]
  · refine Or.inl ?_
    rw [holds, hnews, Option.map_some, Option.map_some, slice_append_add, hlength,
      ← List.append_assoc, slice_append_add]
  · refine Or.inr ⟨u.drop (p + 6), q, List.drop_suffix _ _, ?_, ?_⟩
    · rw [holds, Option.map_some, slice_append_of_le_of_add (hselect p hp)]
    · have hle : p + 6 ≤ (u ++ y).length := by
        rw [List.length_append]
        exact Nat.le_add_right_of_le (hselect p hp)
      rw [hnews, Option.map_some, hlength, ← List.append_assoc, slice_append_of_le_of_add hle,
        List.drop_append_of_le_length (hselect p hp), List.append_assoc]

/-- What is put behind a query without adding a keyword leaves its projection as it is. -/
theorem projection?_append (h : places bounds (s ++ t) = places bounds s) :
    projection? (s ++ t) = projection? s := by
  rw [projection?_eq, projection?_eq, h]
  cases hspan : span? (places bounds s) with
  | none => rfl
  | some r =>
      obtain ⟨-, -, -, hmem⟩ := mem_of_span? hspan
      have hlt : r.2 < s.length := lt_length_of_mem_placesFrom (p := (Keyword.from, r.2)) hmem
      rw [Option.map_some, Option.map_some, slice_append_of_le (Nat.le_of_lt hlt)]

/-- A `SELECT` that begins in the first of two texts ends in it, if the second does not go on with
one. -/
theorem select_le_length (h : Behind vocabulary u t) {p : Nat}
    (hp : (.select, p) ∈ placesFrom (fun b => bounds (b ++ t)) st u) : p + 6 ≤ u.length := by
  obtain ⟨a, b, d, rfl, rfl, -, hmarks⟩ := mem_placesFrom_iff.mp hp
  have hstarts := (List.mem_filter.mp hmarks).2
  have hread := Keyword.readWord_of_startsAt (k := .select) (by decide) hstarts
  have hlocal := localAt_readWord h (by decide : "SELECT".toList ∈ vocabulary)
    (List.suffix_append a (d :: b)) (by simp)
  rw [show Keyword.select.words.headD [] = "SELECT".toList from rfl, hlocal, ne_eq,
    Option.map_eq_none_iff] at hread
  obtain ⟨rest, hrest⟩ := Option.ne_none_iff_exists'.mp hread
  obtain ⟨w, hw, hspells⟩ := readWord_eq_some_iff.mp hrest
  have hlength : w.length = 6 := hspells.length_eq
  rw [hw, List.length_append, List.length_append]
  omega

end QuerySplice.Sql
