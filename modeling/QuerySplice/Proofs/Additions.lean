import QuerySplice.Proofs.Conjunctions
import QuerySplice.Proofs.Injections
import QuerySplice.Proofs.Removals

/-!
# When an added clause takes effect

An added clause takes effect where the text in front of it is effective: no statement has ended
there, and no comment is open. Every edit that adds a clause splits a text in two and writes the
clause between the parts. The text is the query without its terminator and without the clause that
is replaced, and the split is in front of a landmark, behind the word of a `WHERE`, or at the end.

Which comments and semicolons are in the way depends on this place alone. In front of a landmark
only a comment around the landmark is. At the end a second semicolon and an open comment are, since
an edit drops one semicolon and knows no comments. Where a clause is replaced the blanks in front of
it go, and with them the end of a comment may go.
-/

namespace QuerySplice.Sql

open Text

/-- A text with a clause written into it. -/
structure Splice where
  lead : Text
  clause : Text
  rest : Text
  deriving DecidableEq, Repr

def Splice.text (x : Splice) : Text := x.lead ++ (x.clause ++ x.rest)

/-- A clause in front of the earliest of those that follow it, or at the end. -/
def spliceBefore (c : Clause) (clause sql : Text) : Splice :=
  match firstPosition? c.followingKeywords sql with
  | some p => ⟨sql.take p, clause, ' ' :: sql.drop p⟩
  | none => ⟨sql ++ [' '], clause, []⟩

/-- A condition behind the word of the `WHERE`, or a `WHERE` of its own. -/
def spliceCondition (condition sql : Text) : Splice :=
  match Clause.filter.position? sql with
  | none => spliceBefore .filter ("WHERE ".toList ++ condition) sql
  | some p =>
    let bodyStart := p + Clause.filter.keyword.length (sql.drop p)
    ⟨sql.take bodyStart ++ [' '], condition,
      (joinCondition condition (sql.drop bodyStart)).drop (condition.length + 1)⟩

/-- The edits that add a clause. -/
inductive Addition
  | injectLimit (limit : Limit)
  | injectOrder (column direction : Text)
  | setLimit (limit : Limit)
  | setOrder (column direction : Text)
  | addCondition (condition : Text)
  deriving DecidableEq, Repr

namespace Addition

def apply : Addition → Text → Text
  | injectLimit limit, sql => Sql.injectLimit limit sql
  | injectOrder column direction, sql => Sql.injectOrder column direction sql
  | setLimit limit, sql => Sql.setLimit limit sql
  | setOrder column direction, sql => Sql.setOrder column direction sql
  | addCondition condition, sql => Sql.addCondition condition sql

/-- Whether the edit adds its clause to the query. -/
def applies : Addition → Text → Bool
  | injectLimit limit, sql => takesLimit limit sql
  | injectOrder column _, sql => takesOrder column sql
  | setLimit limit, sql => !sql.isEmpty && limit.isPositive
  | setOrder column _, sql => !sql.isEmpty && !column.isEmpty
  | addCondition condition, sql => !sql.isEmpty && !condition.isEmpty

/-- The text that the clause is written into. -/
def base : Addition → Text → Text
  | setLimit _, sql => removeLimit (trimTerminator sql)
  | setOrder _ _, sql => removeOrder (trimTerminator sql)
  | _, sql => trimTerminator sql

/-- What the edit writes. -/
def splice (a : Addition) (sql : Text) : Splice :=
  match a with
  | injectLimit limit => spliceBefore .limit (limitClause limit) (a.base sql)
  | injectOrder column direction => spliceBefore .order (orderClause column direction) (a.base sql)
  | setLimit limit => spliceBefore .limit (limitClause limit) (a.base sql)
  | setOrder column direction => spliceBefore .order (orderClause column direction) (a.base sql)
  | addCondition condition => spliceCondition condition (a.base sql)

end Addition

/-- Where a clause is written into a query. -/
inductive Place
  /-- In front of a clause that follows, at this offset. -/
  | before (q : Nat)
  /-- Behind the word of so many characters at an offset. -/
  | behindWord (p length : Nat)
  /-- At the end, behind the query without its terminator. -/
  | behind
  /-- In place of the clause at this offset, behind the text in front of it. -/
  | replacing (p : Nat)
  /-- At the end, behind what is kept of the text that followed the replaced clause. -/
  | behindRest (p : Nat) (rest : Text)
  deriving DecidableEq, Repr

/-- The place in front of the earliest clause that follows, or at the end. -/
def placeBefore (c : Clause) (sql : Text) : Place :=
  match firstPosition? c.followingKeywords sql with
  | some q => .before q
  | none => .behind

/-- The place in a query of which `left` is left without the clause at `p`. -/
def placeInstead (c : Clause) (p : Nat) (left sql : Text) : Place :=
  match firstPosition? c.followingKeywords left with
  | some q => if left.take q = sql.take q then .before q else .replacing p
  | none =>
    if left = trimEnd (sql.take p) then .replacing p
    else .behindRest p (left.drop ((trimEnd (sql.take p)).length + 1))

def Addition.place (a : Addition) (sql : Text) : Place :=
  match a with
  | injectLimit _ => placeBefore .limit sql
  | injectOrder _ _ => placeBefore .order sql
  | setLimit _ =>
    (Clause.limit.position? sql).elim (placeBefore .limit sql) fun p =>
      placeInstead .limit p (a.base sql) sql
  | setOrder _ _ =>
    (Clause.order.position? sql).elim (placeBefore .order sql) fun p =>
      placeInstead .order p (a.base sql) sql
  | addCondition _ =>
    (Clause.filter.position? sql).elim (placeBefore .filter sql) fun p =>
      .behindWord p "WHERE".length

/-- A comment is open in front of the offset. -/
def InComment (sql : Text) (p : Nat) : Prop := (Reading.start.after (sql.take p)).inComment = true

namespace Place

/-- The text in front of the clause. -/
def lead (sql : Text) : Place → Text
  | before q => sql.take q
  | behindWord p length => sql.take (p + length) ++ [' ']
  | behind => trimTerminator sql ++ [' ']
  | replacing p => trimEnd (sql.take p) ++ [' ']
  | behindRest p rest => trimEnd (sql.take p) ++ ' ' :: rest ++ [' ']

/-- Nothing that the edit does not know is in the way of a clause at the place. -/
def Unhindered (sql : Text) : Place → Prop
  | before q => ¬ InComment sql q
  | behindWord p _ => ¬ InComment sql p
  | behind => (trailingRun sql).count ';' ≤ 1 ∧ ¬ LineOpenBefore IsTerminator sql
  | replacing p => ¬ InComment sql p ∧ ¬ LineOpenBefore Blank (sql.take p)
  | behindRest p rest =>
    -- The removal joins two lines, so that a comment in front takes in the first line of the rest.
    (LineOpenBefore Blank (sql.take p) → ∃ first later, rest = first ++ '\n' :: later ∧
      '\n' ∉ first ∧ Effective (trimEnd (sql.take p) ++ '\n' :: later)) ∧
    (¬ LineOpenBefore Blank (sql.take p) →
      (trailingRun sql).count ';' ≤ 2 ∧ ¬ LineOpenBefore TerminatorRun sql)

/-- The text in front of a clause is the one in front of the place, and what is in the way there
decides whether it is effective. -/
structure Decides (place : Place) (sql lead : Text) : Prop where
  lead_eq : lead = place.lead sql
  effective_iff : Effective lead ↔ place.Unhindered sql

end Place

variable {s t u v base clause sql : Text} {c : Clause} {l : Landmark} {p q : Nat}

/-! ## The written text -/

theorem spliceBefore_of_some (h : firstPosition? c.followingKeywords sql = some p) (clause : Text) :
    spliceBefore c clause sql = ⟨sql.take p, clause, ' ' :: sql.drop p⟩ := by rw [spliceBefore, h]

theorem spliceBefore_of_none (h : firstPosition? c.followingKeywords sql = none) (clause : Text) :
    spliceBefore c clause sql = ⟨sql ++ [' '], clause, []⟩ := by rw [spliceBefore, h]

theorem text_spliceBefore (c : Clause) (clause sql : Text) :
    (spliceBefore c clause sql).text = insertBefore c.followingKeywords clause sql := by
  rw [spliceBefore, insertBefore]
  cases firstPosition? c.followingKeywords sql <;> simp [Splice.text]

theorem text_spliceCondition (hne : (sql.isEmpty || t.isEmpty) = false) :
    (spliceCondition t (trimTerminator sql)).text = addCondition t sql := by
  rw [spliceCondition, addCondition, hne, if_neg (by simp)]
  simp only
  cases Clause.filter.position? (trimTerminator sql) with
  | none => exact text_spliceBefore ..
  | some p =>
      obtain ⟨rest, hrest⟩ := joinCondition_eq_append t ((trimTerminator sql).drop
        (p + Clause.filter.keyword.length ((trimTerminator sql).drop p)))
      simp [Splice.text, hrest]

theorem Addition.apply_eq_text {a : Addition} (h : a.applies sql = true) :
    a.apply sql = (a.splice sql).text := by
  cases a with
  | injectLimit limit => exact (injectLimit_of_takes h).trans (text_spliceBefore ..).symm
  | injectOrder column direction =>
      exact (injectOrder_of_takes h direction).trans (text_spliceBefore ..).symm
  | setLimit limit =>
      have hgo : (sql.isEmpty || !limit.isPositive) = false := by
        simpa [Addition.applies] using h
      rw [Addition.apply, Sql.setLimit, hgo, if_neg (by simp)]
      exact (text_spliceBefore ..).symm
  | setOrder column direction =>
      have hgo : (sql.isEmpty || column.isEmpty) = false := by simpa [Addition.applies] using h
      rw [Addition.apply, Sql.setOrder, hgo, if_neg (by simp)]
      exact (text_spliceBefore ..).symm
  | addCondition condition =>
      exact (text_spliceCondition (by simpa [Addition.applies] using h)).symm

/-! ## Landmarks of a query and its parts -/

/-- Places in the kept part of a query are places of the query. -/
theorem take_trimTerminator {q : Landmark × Nat} (hq : q ∈ occurrences (trimTerminator sql)) :
    (trimTerminator sql).take q.2 = sql.take q.2 := by
  obtain ⟨tail, hsql, -⟩ := exists_append_terminator sql
  have hlt : q.2 < (trimTerminator sql).length := lt_length_of_mem_placesFrom hq
  conv_rhs => rw [hsql]
  rw [List.take_append_of_le_length hlt.le]

/-- The earliest clause that follows `c` is one of its landmarks, and none of them is earlier. -/
theorem firstPosition?_le (hmem : (l, p) ∈ occurrences sql) (hl : l ∈ c.after) :
    ∃ q, firstPosition? c.followingKeywords sql = some q ∧ q ≤ p := by
  have hplace : AcceptedAt (fun s => c.after.any fun l => l.startsAt s) .start sql p := by
    obtain ⟨a, b, d, hsplit, hlength, htop, hmark⟩ := mem_placesFrom_iff.mp hmem
    exact ⟨a, d, b, hsplit, hlength, htop,
      List.any_eq_true.mpr ⟨l, hl, mem_landmarks.mp hmark⟩⟩
  have hspec := firstFrom_spec (fun s => c.after.any fun l => l.startsAt s) .start sql
  rw [firstPosition?_eq_find?, ← first?_eq_find?, first?]
  cases hfirst : firstFrom (fun s => c.after.any fun l => l.startsAt s) .start sql with
  | some q =>
      rw [hfirst] at hspec
      exact ⟨q, rfl, hspec.2 hplace⟩
  | none =>
      rw [hfirst] at hspec
      exact absurd hplace (hspec p)

theorem mem_of_firstPosition? (h : firstPosition? c.followingKeywords sql = some p) :
    ∃ l ∈ c.after, (l, p) ∈ occurrences sql := by
  rw [firstPosition?_eq_find?] at h
  obtain ⟨q, hq, rfl⟩ := Option.map_eq_some_iff.mp h
  have hl := List.find?_some hq
  exact ⟨q.1, List.contains_iff_mem.mp hl, List.mem_of_find?_eq_some hq⟩

/-- No landmark begins at a character that is no letter. -/
theorem ne_length_of_mem_occurrences {d : Char} (hd : isLetterAnyCase d = false)
    (hmem : (l, p) ∈ occurrences (s ++ d :: t)) : p ≠ s.length := by
  rintro rfl
  obtain ⟨a, b, e, hsplit, hlength, -, hmark⟩ := mem_placesFrom_iff.mp hmem
  obtain ⟨-, hrest⟩ := List.append_inj hsplit hlength.symm
  obtain ⟨f, r, heq, hletter⟩ := (Landmark.headed (mem_landmarks.mp hmark)).exists_cons
  obtain ⟨rfl, -⟩ := List.cons.inj (hrest.trans heq)
  exact absurd hletter (by simp [hd])

theorem IsTerminator.firstPosition?_append (ht : IsTerminator t) (c : Clause) (s : Text) :
    firstPosition? c.followingKeywords (s ++ t) = firstPosition? c.followingKeywords s := by
  rw [firstPosition?_eq_find?, firstPosition?_eq_find?, occurrences, occurrences,
    ht.places_append wordMarks_landmarks]

/-! ## Each place -/

namespace Place

theorem not_inComment_iff :
    ¬ InComment sql p ↔ (Reading.start.after (sql.take p)).inComment = false := by
  rw [InComment, Bool.not_eq_true]

theorem decides_before (hclean : Reading.start.clean (sql.take q) = true) :
    (before q).Decides sql (sql.take q) := by
  refine ⟨rfl, ?_⟩
  rw [Unhindered, not_inComment_iff]
  constructor
  · rintro ⟨-, hout⟩
    exact hout
  · intro hout
    exact ⟨hclean, hout⟩

/-- A word and a blank keep a text effective, and end no comment. -/
theorem decides_behindWord {w : Text} (h : SingleStatement (s ++ (w ++ t)))
    (hw : ∀ d ∈ w, isLetterAnyCase d = true) (hne : w ≠ []) :
    (behindWord s.length w.length).Decides (s ++ (w ++ t)) (s ++ w ++ [' ']) := by
  have hclean : Reading.start.clean s = true := by
    obtain ⟨d, w, rfl⟩ := List.exists_cons_of_ne_nil hne
    exact h.clean_of_letter (hw d List.mem_cons_self)
  constructor
  · rw [lead, ← List.length_append, ← List.append_assoc, List.take_left]
  · have hcalm : Calm w := .of_class isLetterAnyCase (by decide) hw
    have hout {d : Char} (hd : isLetterAnyCase d = false) : d ∉ w := fun hmem => by
      rw [hw d hmem] at hd
      cases hd
    rw [effective_append_blank_iff, effective_append_iff hcalm (hout (by decide))
      (hout (by decide)), Unhindered, not_inComment_iff, List.take_left]
    exact ⟨fun heff => heff.outside, fun ho => ⟨hclean, ho⟩⟩

theorem decides_behind (h : SingleStatement sql) :
    behind.Decides sql (trimTerminator sql ++ [' ']) :=
  ⟨rfl, effective_append_blank_iff.trans h.effective_trimTerminator_iff⟩

theorem decides_replacing (hclean : Reading.start.clean (sql.take p) = true) :
    (replacing p).Decides sql (trimEnd (sql.take p) ++ [' ']) := by
  refine ⟨rfl, effective_append_blank_iff.trans ?_⟩
  rw [Unhindered, not_inComment_iff]
  exact effective_trimEnd_iff hclean

/-- Where a comment of the line is open, the rest of the query follows it on its line. -/
theorem effective_blank_append_iff {rest : Text} (hs : LineOpen s) :
    Effective (s ++ ' ' :: rest) ↔
      ∃ first later, rest = first ++ '\n' :: later ∧ '\n' ∉ first ∧
        Effective (s ++ '\n' :: later) := by
  have hblank {first : Text} (hfirst : '\n' ∉ first) : '\n' ∉ ' ' :: first := by simpa using hfirst
  constructor
  · intro heff
    by_cases hmem : '\n' ∈ rest
    · obtain ⟨first, later, rfl, hfirst⟩ := List.eq_append_cons_of_mem hmem
      exact ⟨first, later, rfl, hfirst, (hs.effective_append_iff (hblank hfirst)).mp heff⟩
    · exact absurd heff (hs.append (hblank hmem)).not_effective
  · rintro ⟨first, later, rfl, hfirst, heff⟩
    exact (hs.effective_append_iff (hblank hfirst)).mpr heff

end Place

/-! ## A clause in the query itself -/

theorem SingleStatement.clean_take (h : SingleStatement sql) (hmem : (l, p) ∈ occurrences sql) :
    Reading.start.clean (sql.take p) = true := by
  obtain ⟨a, b, d, rfl, rfl, -, hmark⟩ := mem_placesFrom_iff.mp hmem
  obtain ⟨e, r, heq, hletter⟩ := (Landmark.headed (mem_landmarks.mp hmark)).exists_cons
  obtain ⟨rfl, rfl⟩ := List.cons.inj heq
  rw [List.take_left]
  exact h.clean_of_letter hletter

theorem SingleStatement.decides_placeBefore (h : SingleStatement sql) (c : Clause) (clause : Text) :
    (placeBefore c sql).Decides sql (spliceBefore c clause (trimTerminator sql)).lead := by
  obtain ⟨tail, hsql, htail⟩ := exists_append_terminator sql
  have hsame : firstPosition? c.followingKeywords (trimTerminator sql) =
      firstPosition? c.followingKeywords sql := by
    conv_rhs => rw [hsql]
    exact (htail.firstPosition?_append c _).symm
  cases hfirst : firstPosition? c.followingKeywords sql with
  | none =>
      rw [spliceBefore_of_none (hsame.trans hfirst), placeBefore, hfirst]
      exact Place.decides_behind h
  | some q =>
      obtain ⟨l, -, hmem⟩ := mem_of_firstPosition? (hsame.trans hfirst)
      rw [spliceBefore_of_some (hsame.trans hfirst), placeBefore, hfirst]
      simp only [take_trimTerminator hmem]
      rw [occurrences_trimTerminator] at hmem
      exact Place.decides_before (h.clean_take hmem)

/-! ## Where a clause is replaced -/

/-- In front of a clause that follows, where the query has the same text in front of it or the place
of the replaced clause is. -/
theorem decides_placeInstead_of_some (htake : sql.take p = u)
    (hfirst : firstPosition? c.followingKeywords base = some q)
    (hclean : Reading.start.clean u = true)
    (hlead : base.take q = sql.take q ∧ q ≤ p ∨ base.take q = trimEnd u ++ [' ']) :
    (placeInstead c p base sql).Decides sql (spliceBefore c clause base).lead := by
  subst htake
  rw [spliceBefore_of_some hfirst, placeInstead, hfirst]
  simp only
  split_ifs with hsame
  · rw [hsame]
    refine Place.decides_before ?_
    rcases hlead with ⟨-, hle⟩ | hlead
    · exact Reading.clean_of_isPrefix hclean (List.take_prefix_take_left hle)
    · have hfront := Reading.clean_of_isPrefix hclean (isPrefix_trimEnd (sql.take p))
      have hblank : ';' ∉ [' '] := by decide
      rw [← hsame, hlead, Reading.clean_append, hfront, Reading.clean_of_not_mem hblank]
      rfl
  · rw [hlead.resolve_left fun h => hsame h.1]
    exact Place.decides_replacing hclean

/-- At the end, where the removal leaves nothing behind the place of the replaced clause. -/
theorem decides_placeInstead_of_ended (htake : sql.take p = u)
    (hfirst : firstPosition? c.followingKeywords (trimEnd u) = none)
    (hclean : Reading.start.clean u = true) :
    (placeInstead c p (trimEnd u) sql).Decides sql (spliceBefore c clause (trimEnd u)).lead := by
  subst htake
  rw [spliceBefore_of_none hfirst, placeInstead, hfirst]
  simp only [if_true]
  exact Place.decides_replacing hclean

/-- At the end, behind the rest that a removed limit leaves. -/
theorem SingleStatement.decides_placeInstead_of_rest {removed rest gap : Text}
    (h : SingleStatement sql) (htake : sql.take p = u)
    (hsplit : trimTerminator (trimTerminator sql) = trimEnd u ++ (removed ++ (rest ++ gap)))
    (hcalm : Calm removed) (hne : removed ≠ []) (hsemicolon : ';' ∉ removed) (hrest : rest ≠ [])
    (hend : trimEnd rest = rest) (hg : Blank gap)
    (hfirst : firstPosition? c.followingKeywords (trimEnd u ++ ' ' :: rest) = none) :
    (placeInstead c p (trimEnd u ++ ' ' :: rest) sql).Decides sql
      (spliceBefore c clause (trimEnd u ++ ' ' :: rest)).lead := by
  subst htake
  have hplace : placeInstead c p (trimEnd (sql.take p) ++ ' ' :: rest) sql = .behindRest p rest := by
    rw [placeInstead, hfirst]
    simp only
    rw [if_neg (by simp), List.drop_length_add_append]
    rfl
  rw [spliceBefore_of_none hfirst, hplace]
  refine ⟨by simp [Place.lead], effective_append_blank_iff.trans ?_⟩
  rw [Place.Unhindered, lineOpenBefore_blank_iff]
  generalize trimEnd (sql.take p) = s at *
  by_cases hopen : LineOpen s
  · rw [Place.effective_blank_append_iff hopen]
    exact ⟨fun heff => ⟨fun _ => heff, fun hclosed => absurd hopen hclosed⟩,
      fun hun => hun.1 hopen⟩
  · obtain ⟨tail, hsql, htail⟩ := exists_append_terminator sql
    obtain ⟨tail', htrim, htail'⟩ := exists_append_terminator (trimTerminator sql)
    have hwhole : sql = s ++ (removed ++ rest) ++ (gap ++ tail' ++ tail) := by
      conv_lhs => rw [hsql, htrim, hsplit]
      simp only [List.append_assoc]
    have hrun : TerminatorRun (gap ++ tail' ++ tail) :=
      (hg.terminatorRun.append htail'.terminatorRun).append htail.terminatorRun
    have hends : trimEnd (s ++ (removed ++ rest)) = s ++ (removed ++ rest) := by
      rw [← List.append_assoc, trimEnd_append_of_ne_nil (hend.symm ▸ hrest), hend]
    have hcount : (trailingRun (s ++ (removed ++ rest))).count ';' =
        (trailingRun sql).count ';' - 2 := by
      have htwice := count_trailingRun_trimTerminator (trimTerminator sql)
      rw [count_trailingRun_trimTerminator sql, hsplit, ← List.append_assoc removed,
        ← List.append_assoc s, (trailingRun_append hg.terminatorRun _).1, List.count_append,
        List.count_eq_zero.mpr hg.not_mem_semicolon] at htwice
      omega
    rw [effective_replace_calm_iff hopen hcalm hne hsemicolon]
    rw [hwhole] at h hcount ⊢
    rw [h.effective_iff_of_trimEnd hrun hends hcount]
    exact ⟨fun hun => ⟨fun hline => absurd hline hopen, fun _ => hun⟩, fun hun => hun.2 hopen⟩

/-- The added clause in a query from which the old one was removed. -/
theorem SingleStatement.decides_placeInstead (h : SingleStatement sql)
    (hsplit : trimTerminator (trimTerminator sql) = u ++ v) (hu : (Scan.start.after u).Ready)
    (hv : (Landmark.clause c).startsAt v = true) (hrem : Remains c u v base) (clause : Text) :
    (placeInstead c u.length base sql).Decides sql (spliceBefore c clause base).lead := by
  obtain ⟨tail, hsql, htail⟩ := exists_append_terminator sql
  obtain ⟨tail', htrim, htail'⟩ := exists_append_terminator (trimTerminator sql)
  have hwhole : sql = u ++ (v ++ tail' ++ tail) := by
    conv_lhs => rw [hsql, htrim, hsplit]
    simp only [List.append_assoc]
  have htake : sql.take u.length = u := by rw [hwhole, List.take_left]
  have hclean : Reading.start.clean u = true := by
    obtain ⟨d, r, rfl, hd⟩ := (Landmark.headed hv).exists_cons
    rw [hwhole] at h
    exact h.clean_of_letter hd
  obtain ⟨g, hug, hg⟩ : ∃ g, u = trimEnd u ++ g ∧ Blank g := exists_trimEnd_append u
  have hlength := (isPrefix_trimEnd u).length_le
  -- What is found in front of the removed clause is found at the same place of the query.
  have hfront {s : Text} (hs : s <+: u) (t : Text) (q : Nat) (hq : q ≤ s.length) :
      (s ++ t).take q = sql.take q ∧ q ≤ u.length := by
    obtain ⟨r, rfl⟩ := hs
    refine ⟨?_, hq.trans (by simp)⟩
    rw [hwhole, List.append_assoc, List.take_append_of_le_length hq,
      List.take_append_of_le_length hq]
  cases hrem with
  | @followed w l hl hw =>
      obtain ⟨q, hfirst, hle⟩ := firstPosition?_le (mem_occurrences_of_ready hu hw) hl
      exact decides_placeInstead_of_some htake hfirst hclean
        (Or.inl (hfront List.prefix_rfl w q hle))
  | ended hnone =>
      cases hfirst : firstPosition? c.followingKeywords (trimEnd u) with
      | none => exact decides_placeInstead_of_ended htake hfirst hclean
      | some q =>
          obtain ⟨l, -, hmem⟩ := mem_of_firstPosition? hfirst
          have hlt := lt_length_of_mem_placesFrom hmem
          have hsame := hfront (isPrefix_trimEnd u) [] q hlt.le
          rw [List.append_nil] at hsame
          exact decides_placeInstead_of_some htake hfirst hclean (Or.inl hsame)
  | @behindLimit y gap rest gap' hnone hparts hy hpart hgap hrest hend hgap' =>
      obtain ⟨hplain, hcalm, hsemicolon⟩ := classes_of_isLimitPart hpart
      cases hfirst : firstPosition? c.followingKeywords (trimEnd u ++ ' ' :: rest) with
      | none =>
          have hremoved : Calm (g ++ (y ++ gap)) := hg.calm.append (hcalm.append hgap.calm)
          have hnosemi : ';' ∉ g ++ (y ++ gap) := by
            simp [hg.not_mem_semicolon, hsemicolon, hgap.not_mem_semicolon]
          refine h.decides_placeInstead_of_rest htake ?_ hremoved (by simp [hy]) hnosemi hrest hend
            hgap' hfirst
          calc
            trimTerminator (trimTerminator sql) = trimEnd u ++ g ++ v := by rw [hsplit, ← hug]
            _ = trimEnd u ++ (g ++ (y ++ gap) ++ (rest ++ gap')) := by
              rw [hparts]
              simp only [List.append_assoc]
      | some q =>
          obtain ⟨l, hl, hmem⟩ := mem_of_firstPosition? hfirst
          have hlevel : Level (trimEnd u ++ g) := by
            rw [← hug]
            exact ⟨hu.outside, hu.depth⟩
          have hle := le_length_of_mem_occurrences (hlevel.of_append_blank hg) hplain hgap hgap'
            (hparts ▸ hnone) hl hmem
          have hne : q ≠ (trimEnd u).length := ne_length_of_mem_occurrences (by decide) hmem
          refine decides_placeInstead_of_some htake hfirst hclean ?_
          rcases Nat.lt_or_ge q (trimEnd u).length with hlt | hge
          · exact Or.inl (hfront (isPrefix_trimEnd u) _ q hlt.le)
          · -- The text behind the limit begins with a clause, which was no clause behind a digit.
            obtain rfl : q = (trimEnd u).length + 1 := by omega
            right
            rw [List.append_cons, List.take_left' (by simp)]

/-! ## Every addition -/

/-- An edit that replaces its clause if the query has one. -/
theorem SingleStatement.decides_replaced (h : SingleStatement sql)
    (hkeep : c.position? (trimTerminator sql) = none → base = trimTerminator sql)
    (hremove : ∀ p, c.position? (trimTerminator sql) = some p →
      ∃ u v, trimTerminator (trimTerminator sql) = u ++ v ∧ u.length = p ∧
        (Scan.start.after u).Ready ∧ (Landmark.clause c).startsAt v = true ∧ Remains c u v base)
    (clause : Text) :
    ((c.position? sql).elim (placeBefore c sql) fun p => placeInstead c p base sql).Decides sql
      (spliceBefore c clause base).lead := by
  rw [Clause.position?_trimTerminator] at hkeep hremove
  cases hposition : c.position? sql with
  | none =>
      rw [hkeep hposition]
      exact h.decides_placeBefore c clause
  | some p =>
      obtain ⟨u, v, hsplit, rfl, hu, hv, hrem⟩ := hremove p hposition
      exact h.decides_placeInstead hsplit hu hv hrem clause

/-- A condition behind the word of the `WHERE`, or in a `WHERE` of its own. -/
theorem SingleStatement.decides_condition (h : SingleStatement sql) (condition : Text) :
    ((Clause.filter.position? sql).elim (placeBefore .filter sql) fun p =>
      .behindWord p "WHERE".length).Decides sql
        (spliceCondition condition (trimTerminator sql)).lead := by
  rw [← Clause.position?_trimTerminator]
  cases hfilter : Clause.filter.position? (trimTerminator sql) with
  | none =>
      rw [spliceCondition, hfilter]
      exact h.decides_placeBefore .filter _
  | some p =>
      obtain ⟨tail, hsql, -⟩ := exists_append_terminator sql
      obtain ⟨a, w, s, htrim, rfl, -, hw, hs⟩ := filter_position?_eq_some hfilter
      have hletters := hw.isLetter (show IsWord "WHERE".toList by decide).2
      have hlength : w.length = "WHERE".length := hw.length_eq
      have hne : w ≠ [] := by
        rintro rfl
        exact absurd hlength (by decide)
      have hlead : (spliceCondition condition (trimTerminator sql)).lead = a ++ w ++ [' '] := by
        rw [spliceCondition, hfilter, htrim]
        simp only [(take_drop_filter hw a hs).1]
      have hwhole : sql = a ++ (w ++ (s ++ tail)) := by
        conv_lhs => rw [hsql, htrim]
        simp only [List.append_assoc]
      rw [hlead, ← hlength]
      rw [hwhole] at h ⊢
      exact Place.decides_behindWord h hletters hne

/-- The text in front of an added clause, and when it is effective: exactly where nothing that the
edit does not know is in the way at the place of the clause, no statement has ended in front of the
clause and no comment takes it in. -/
theorem Addition.effective_lead_iff {a : Addition} (h : SingleStatement sql)
    (happlies : a.applies sql = true) :
    a.apply sql = (a.splice sql).text ∧ (a.splice sql).lead = (a.place sql).lead sql ∧
      (Effective (a.splice sql).lead ↔ (a.place sql).Unhindered sql) := by
  suffices hplace : (a.place sql).Decides sql (a.splice sql).lead from
    ⟨Addition.apply_eq_text happlies, hplace.lead_eq, hplace.effective_iff⟩
  cases a with
  | injectLimit limit => exact h.decides_placeBefore .limit _
  | injectOrder column direction => exact h.decides_placeBefore .order _
  | setLimit limit =>
      refine h.decides_replaced (fun hnone => ?_) (fun p => remains_removeLimit) _
      rw [removeLimit, hnone]
  | setOrder column direction =>
      refine h.decides_replaced (fun hnone => ?_) (fun p => remains_removeOrder) _
      rw [removeOrder, hnone]
  | addCondition condition => exact h.decides_condition condition

/-- A comment behind the place of the clause is not in the way, nor is one that ends in front of it,
and of two semicolons none is left where a clause is replaced. -/
theorem Addition.effective_lead_iff_places :
    (SingleStatement "SELECT a WHERE b -- limit rows".toList ∧
      (addCondition "x = 1".toList).applies "SELECT a WHERE b -- limit rows".toList = true ∧
      (addCondition "x = 1".toList).apply "SELECT a WHERE b -- limit rows".toList =
        "SELECT a WHERE x = 1 AND b -- limit rows".toList ∧
      (Place.behindWord 9 5).Unhindered "SELECT a WHERE b -- limit rows".toList) ∧
    (SingleStatement "SELECT a FORMAT b -- not FORMAT c".toList ∧
      (injectLimit (.whole 5)).applies "SELECT a FORMAT b -- not FORMAT c".toList = true ∧
      (injectLimit (.whole 5)).apply "SELECT a FORMAT b -- not FORMAT c".toList =
        "SELECT a LIMIT 5 FORMAT b -- not FORMAT c".toList ∧
      (Place.before 9).Unhindered "SELECT a FORMAT b -- not FORMAT c".toList) ∧
    (SingleStatement "SELECT a -- b\nFROM t LIMIT 3;;".toList ∧
      (setLimit (.whole 5)).applies "SELECT a -- b\nFROM t LIMIT 3;;".toList = true ∧
      (setLimit (.whole 5)).apply "SELECT a -- b\nFROM t LIMIT 3;;".toList =
        "SELECT a -- b\nFROM t LIMIT 5".toList ∧
      (Place.replacing 21).Unhindered "SELECT a -- b\nFROM t LIMIT 3;;".toList) := by
  have hunhindered {a : Addition} {sql : Text} {place : Place} (hsingle : SingleStatement sql)
      (happlies : a.applies sql = true) (hplace : a.place sql = place)
      (heffective : Effective (a.splice sql).lead) : place.Unhindered sql := by
    subst hplace
    exact (Addition.effective_lead_iff hsingle happlies).2.2.mp heffective
  have hcondition : SingleStatement "SELECT a WHERE b -- limit rows".toList ∧
      (addCondition "x = 1".toList).applies "SELECT a WHERE b -- limit rows".toList = true := by
    decide +kernel
  have hinjected : SingleStatement "SELECT a FORMAT b -- not FORMAT c".toList ∧
      (injectLimit (.whole 5)).applies "SELECT a FORMAT b -- not FORMAT c".toList = true := by
    decide +kernel
  have hset : SingleStatement "SELECT a -- b\nFROM t LIMIT 3;;".toList ∧
      (setLimit (.whole 5)).applies "SELECT a -- b\nFROM t LIMIT 3;;".toList = true := by
    decide +kernel
  refine ⟨⟨hcondition.1, hcondition.2, by decide +kernel, ?_⟩,
    ⟨hinjected.1, hinjected.2, by decide +kernel, ?_⟩, ⟨hset.1, hset.2, by decide +kernel, ?_⟩⟩
  · exact hunhindered hcondition.1 hcondition.2 (by decide +kernel) (by decide +kernel)
  · exact hunhindered hinjected.1 hinjected.2 (by decide +kernel) (by decide +kernel)
  · exact hunhindered hset.1 hset.2 (by decide +kernel) (by decide +kernel)

/-- Of two semicolons one is kept, and the limit behind it is no part of the statement. -/
theorem not_effective_lead_twoSemicolons :
    ¬ ∀ (a : Addition) (sql : Text), SingleStatement sql → a.applies sql = true →
      a.apply sql = (a.splice sql).text ∧ Effective (a.splice sql).lead := by
  intro hall
  have heffective :=
    hall (.injectLimit (.whole 5)) "SELECT a FROM t;;".toList (by decide) (by decide)
  exact absurd heffective.2 (by decide)

/-- A comment hides a clause behind it, a clause in front of a word in it, and a clause in place of
one on the next line, at the end or in front of what follows. -/
example : ∀ q ∈ [(Addition.injectLimit (.whole 5), "SELECT a FROM t -- all"),
      (.injectLimit (.whole 5), "SELECT a /* FORMAT b */ FROM t"),
      (.setLimit (.whole 5), "SELECT a -- all\nLIMIT 3"),
      (.setLimit (.whole 5), "SELECT a -- all\nLIMIT 3FORMAT b")],
    SingleStatement q.2.toList ∧ q.1.applies q.2.toList = true ∧
      ¬ Effective (q.1.splice q.2.toList).lead := by decide

end QuerySplice.Sql
