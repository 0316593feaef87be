import QuerySplice.Proofs.Removals

/-!
# What the locator sees of a query

The characters strictly inside quoted sections, and those strictly inside groups that are opened at
depth zero, are hidden. The outline of a query keeps the other characters, and the delimiters are
among them. Masking writes an `x` in the place of each hidden character.

The scan of the masked query follows the scan of the query: it stands in the same place outside,
in the same section, or in a group. Behind a top-level character both texts go on alike up to a
delimiter and with it, and no recogniser reads beyond one. So the masked query has its keywords at
the same offsets, and so has every query with the same outline.
-/

namespace QuerySplice.Sql

open Text

variable {st st' : Scan} {c d mark : Char} {s t p r : Text} {k : Keyword}

namespace Scan

/-- Whether `c` closes the section in which it is read, when `next` follows it. -/
def closes (st : Scan) (c : Char) (next : Text) : Bool :=
  match st.mode with
  | .quoted mark => c == mark && !nextIs (· == mark) next
  | .plain | .escaped _ | .closing _ => false

/-- Whether `c` stands strictly inside a quoted section. -/
def inSection (st : Scan) (c : Char) (next : Text) : Bool := !st.outside c && !st.closes c next

/-- Whether `c` stands strictly inside a group that was opened at depth zero: the depth is positive
on both sides of it. -/
def inGroup (st : Scan) (c : Char) : Bool := decide (0 < st.depth ∧ 0 < (st.step c).depth)

def hides (st : Scan) (c : Char) (next : Text) : Bool := st.inSection c next || st.inGroup c

end Scan

/-- The characters of a query with nothing in the place of each hidden one. -/
def outlineFrom : Scan → Text → List (Option Char)
  | _, [] => []
  | st, c :: s => (if st.hides c s then none else some c) :: outlineFrom (st.step c) s

def outline (sql : Text) : List (Option Char) := outlineFrom .start sql

/-- The query with an `x` in the place of each hidden character. -/
def mask (sql : Text) : Text := (outline sql).map (·.getD 'x')

/-- Marks inside a group and parentheses inside a section are hidden; a doubled mark is no
delimiter. -/
example : mask "SELECT 'it''s (', f(')', (b)) FROM t".toList =
    "SELECT 'xxxxxxx', f(xxxxxxxx) FROM t".toList := by decide

def maskFrom (st : Scan) (s : Text) : Text := (outlineFrom st s).map (·.getD 'x')

/-- What stands in the masked query for `c`, which `next` follows. -/
def Scan.shown (st : Scan) (c : Char) (next : Text) : Char := if st.hides c next then 'x' else c

@[simp] theorem maskFrom_nil (st : Scan) : maskFrom st [] = [] := rfl

@[simp] theorem maskFrom_cons (st : Scan) (c : Char) (s : Text) :
    maskFrom st (c :: s) = st.shown c s :: maskFrom (st.step c) s := by
  rw [maskFrom, outlineFrom, List.map_cons, Scan.shown]
  split <;> rfl

@[simp] theorem length_mask (sql : Text) : (mask sql).length = sql.length := by
  have hlength (st : Scan) (s : Text) : (maskFrom st s).length = s.length := by
    induction s generalizing st with
    | nil => rfl
    | cons c s ih => rw [maskFrom_cons, List.length_cons, ih, List.length_cons]
  exact hlength .start sql

/-! ## Recognisers stop at delimiters -/

/-- The texts agree up to a delimiter and on the delimiter, or to their end. -/
inductive SameFront : Text → Text → Prop
  | nil : SameFront [] []
  | delimiter {d : Char} (hd : d ∈ delimiters) (s t : Text) : SameFront (d :: s) (d :: t)
  | cons {s t : Text} (c : Char) (h : SameFront s t) : SameFront (c :: s) (c :: t)

namespace SameFront

theorem refl : ∀ s : Text, SameFront s s
  | [] => .nil
  | c :: s => .cons c (refl s)

theorem symm (h : SameFront s t) : SameFront t s := by
  induction h with
  | nil => exact .nil
  | delimiter hd s t => exact .delimiter hd t s
  | cons c h ih => exact .cons c ih

theorem nextIs_eq (h : SameFront s t) (inClass : Char → Bool) :
    nextIs inClass s = nextIs inClass t := by
  cases h <;> rfl

/-- Plain text in front of one of the texts is in front of both. -/
theorem exists_append (h : SameFront (p ++ r) t) (hp : PlainText p) :
    ∃ r', t = p ++ r' ∧ SameFront r r' := by
  induction p generalizing t with
  | nil => exact ⟨t, rfl, h⟩
  | cons c p ih =>
      rw [List.cons_append] at h
      cases h with
      | delimiter hd =>
          have hall : (delimiters.all fun d => isQuoteMark d || Scan.weight d != 0) = true := by
            decide
          have hmark := List.all_eq_true.mp hall c hd
          obtain ⟨hquote, hweight⟩ := hp c List.mem_cons_self
          simp [hquote, hweight] at hmark
      | cons _ h =>
          obtain ⟨r', rfl, hr⟩ := ih h fun d hd => hp d (by simp [hd])
          exact ⟨r', rfl, hr⟩

theorem callFollows (h : SameFront s t) (hs : CallFollows s) : CallFollows t := by
  obtain ⟨gap, args, rfl, hg⟩ := hs
  obtain ⟨r', rfl, hr⟩ := h.exists_append hg.plainText
  cases hr with
  | delimiter _ _ args' => exact ⟨gap, args', rfl, hg⟩
  | cons _ hargs => exact ⟨gap, _, rfl, hg⟩

theorem limitByArguments (h : SameFront s t) (hs : LimitByArguments isNameCharAnyCase s) :
    LimitByArguments isNameCharAnyCase t := by
  obtain ⟨numbers, gap, word, rest, rfl, hn, hg, hw, hrest⟩ := hs
  obtain ⟨r₁, rfl, h₁⟩ := h.exists_append (classes_of_isLimitPart hn.isLimitPart).1
  obtain ⟨r₂, rfl, h₂⟩ := h₁.exists_append hg.2.plainText
  obtain ⟨r₃, rfl, h₃⟩ := h₂.exists_append (hw.plainText isWord_by)
  exact ⟨numbers, gap, word, r₃, rfl, hn, hg, hw, (h₃.nextIs_eq _).symm.trans hrest⟩

end SameFront

theorem SpellsWords.plainText {words : List Text} (hw : ∀ word ∈ words, IsWord word)
    (hs : SpellsWords words s) : PlainText s := by
  induction hs with
  | last hs => exact hs.plainText (hw _ (by simp))
  | cons _ hs hg _ ih =>
      have htail := ih fun word h => hw word (by simp [h])
      exact ((hs.plainText (hw _ (by simp))).append hg.2.plainText).append htail

theorem SameFront.keywordAt (hk : k ∈ locatable) (h : SameFront s t)
    (hs : KeywordAt isNameCharAnyCase k s) : KeywordAt isNameCharAnyCase k t := by
  obtain ⟨words, rest, rfl, hw, hname, hcall, hlimit⟩ := hs
  obtain ⟨r', rfl, hr⟩ := h.exists_append (hw.plainText (locatable_words hk).2)
  refine ⟨words, r', rfl, hw, (hr.nextIs_eq _).symm.trans hname, ?_, ?_⟩
  · exact fun hcallable hfollows => hcall hcallable (hr.symm.callFollows hfollows)
  · exact fun hkey hargs => hlimit hkey (hr.symm.limitByArguments hargs)

theorem SameFront.startsAt_eq (hk : k ∈ locatable) (h : SameFront s t) :
    k.startsAt s = k.startsAt t := by
  rw [Bool.eq_iff_iff, startsAt_iff hk, startsAt_iff hk]
  exact ⟨h.keywordAt hk, h.symm.keywordAt hk⟩

theorem SameFront.startsLimitBy_of (h : SameFront s t) (hs : startsLimitBy s = true) :
    startsLimitBy t = true := by
  obtain ⟨w, r, rfl, hw, hargs⟩ := (startsLimitBy_iff s).mp hs
  obtain ⟨r', rfl, hr⟩ := h.exists_append (hw.plainText (by decide))
  exact (startsLimitBy_iff _).mpr ⟨w, r', rfl, hw, hr.limitByArguments hargs⟩

theorem SameFront.startsLimitBy_eq (h : SameFront s t) : startsLimitBy s = startsLimitBy t := by
  rw [Bool.eq_iff_iff]
  exact ⟨h.startsLimitBy_of, h.symm.startsLimitBy_of⟩

/-! ## The scan of the masked query -/

/-- The scan has read the mark that opens a section and nothing that stands behind it. -/
def Scan.Within (st : Scan) (mark : Char) : Prop :=
  st.mode = .quoted mark ∨ st.mode = .escaped mark ∨ st.mode = .closing mark

/-- How a scan of the masked query stands to the scan `st` of the query, which has `s` before it:
in a group at depth one, in the same place outside, or in the same section. -/
inductive Shadows (st : Scan) (s : Text) : Scan → Prop
  | inGroup {st' : Scan} (hst : 0 < st.depth) (hdepth : st'.depth = 1) (hmode : st'.mode = .plain) :
      Shadows st s st'
  | outside (hst : st.depth ≤ 0) (hnext : st.between s) : Shadows st s st
  | inSection {st' : Scan} {mark : Char} (hst : st.depth ≤ 0) (hmark : isQuoteMark mark = true)
      (hin : st.Within mark) (hnext : nextIs st.outside s = false)
      (hdepth : st'.depth = st.depth) (hmode : st'.mode = .quoted mark) : Shadows st s st'

theorem Scan.inGroup_eq_false (hst : st.depth ≤ 0) (c : Char) : st.inGroup c = false := by
  rw [Scan.inGroup, decide_eq_false_iff_not]
  omega

theorem Scan.shown_of_outside (hc : st.outside c = true) (hgroup : st.inGroup c = false)
    (s : Text) : st.shown c s = c := by
  simp [Scan.shown, Scan.hides, Scan.inSection, hc, hgroup]

/-- A group at depth one is left by a closing parenthesis and by nothing else. -/
theorem Scan.eq_of_leaves (hst : 0 < st.depth) (hstep : ¬ 0 < (st.step c).depth) :
    st.outside c = true ∧ c = ')' ∧ st.depth = 1 := by
  have hc : st.outside c = true := by
    by_contra hc
    simp only [Scan.step, hc, if_false] at hstep
    exact hstep hst
  rw [Scan.step_depth hc, Scan.weight] at hstep
  refine ⟨hc, ?_⟩
  split at hstep
  · omega
  · split at hstep
    · next h => exact ⟨h, by omega⟩
    · omega

theorem Scan.step_of_plain (hmode : st.mode = .plain) (hm : isQuoteMark c = false) :
    st.step c = ⟨st.depth + Scan.weight c, .plain, !(isNameChar c || c == '.')⟩ := by
  have hc : st.outside c = true := by simp [Scan.outside, hmode]
  simp [Scan.step, Scan.modeAfter, hc, hm]

namespace Shadows

/-- Inside a group the masked query stays at depth one until the group is left. -/
theorem step_inGroup (hst : 0 < st.depth) (hdepth : st'.depth = 1) (hmode : st'.mode = .plain)
    (c : Char) (s : Text) : Shadows (st.step c) s (st'.step (st.shown c s)) := by
  by_cases hstep : 0 < (st.step c).depth
  · have hshown : st.shown c s = 'x' := by
      simp [Scan.shown, Scan.hides, Scan.inGroup, hst, hstep]
    rw [hshown, Scan.step_of_plain hmode (by decide), hdepth]
    exact .inGroup hstep rfl rfl
  · obtain ⟨hc, rfl, hone⟩ := Scan.eq_of_leaves hst hstep
    have hgroup : st.inGroup ')' = false := by
      rw [Scan.inGroup, decide_eq_false_iff_not]
      exact fun h => hstep h.2
    have heq : st'.step ')' = st.step ')' := by
      rw [Scan.step_of_plain hmode (by decide), hdepth]
      simp [Scan.step, Scan.modeAfter, hc, hone, isQuoteMark]
    rw [Scan.shown_of_outside hc hgroup, heq]
    exact .outside (Int.not_lt.mp hstep)
      (Scan.between_of_plain (Scan.step_mode_of_plain hc (by decide)) s)

/-- Outside sections and groups the same character is read from the same place. -/
theorem step_outside (hst : st.depth ≤ 0) (hc : st.outside c = true) (s : Text) :
    Shadows (st.step c) s (st.step c) := by
  by_cases hm : isQuoteMark c = true
  · have hmode := step_mode_of_mark hm hc
    refine .inSection ?_ hm (Or.inl hmode) ?_ rfl hmode
    · rwa [Scan.step_depth hc, weight_of_mark hm, Int.add_zero]
    · cases s <;> simp [Scan.outside, hmode]
  · have hmode := Scan.step_mode_of_plain hc (Bool.eq_false_iff.mpr hm)
    by_cases hstep : 0 < (st.step c).depth
    · have hone : Scan.weight c ≤ 1 := by
        unfold Scan.weight
        split
        · exact Int.le_refl 1
        · split <;> decide
      refine .inGroup hstep ?_ hmode
      rw [Scan.step_depth hc] at hstep ⊢
      omega
    · exact .outside (Int.not_lt.mp hstep) (Scan.between_of_plain hmode s)

end Shadows

/-- A section goes on behind each character that does not close it. -/
theorem Scan.within_step (hin : st.Within mark) (hc : st.outside c = false)
    (hclose : st.closes c s = false) :
    (st.step c).Within mark ∧ nextIs (st.step c).outside s = false := by
  have hnext {st : Scan} (h : st.mode = .quoted mark ∨ st.mode = .escaped mark) :
      st.Within mark ∧ nextIs st.outside s = false := by
    refine ⟨h.imp id Or.inl, ?_⟩
    rcases h with h | h <;> cases s <;> simp [Scan.outside, h]
  rcases hin with hmode | hmode | hmode
  · have hread : (st.step c).mode =
        if c = '\\' then .escaped mark else if c = mark then .closing mark else .quoted mark := by
      simp only [Scan.step, Scan.modeAfter, hc, hmode, Bool.false_eq_true, if_false]
    split at hread
    · exact hnext (Or.inr hread)
    · split at hread
      · next hback hmark =>
          -- the mark is the first of two, and the second one is read inside as well
          refine ⟨Or.inr (Or.inr hread), ?_⟩
          cases s with
          | nil => rfl
          | cons d s =>
              have hd : d = mark := by simpa [Scan.closes, hmode, hmark] using hclose
              rw [nextIs_cons, Scan.outside, hread, hd]
              exact bne_self_eq_false mark
      · exact hnext (Or.inl hread)
  all_goals
    refine hnext (Or.inl ?_)
    simp only [Scan.step, Scan.modeAfter, hc, hmode, Bool.false_eq_true, if_false]

theorem Scan.closes_iff (hin : st.Within mark) (c : Char) (s : Text) :
    st.closes c s = true ↔
      st.mode = .quoted mark ∧ c = mark ∧ nextIs (· == mark) s = false := by
  rcases hin with hmode | hmode | hmode <;> simp [Scan.closes, hmode]

/-- Behind the mark that closes a section both queries are read outside. -/
theorem Scan.between_of_closes (hmark : isQuoteMark mark = true) (hin : st.Within mark)
    (hclose : st.closes c s = true) : (st.step c).between s := by
  obtain ⟨hmode, rfl, hnext⟩ := (Scan.closes_iff hin c s).mp hclose
  have hback := ne_backslash_of_mark hmark
  have hstep : (st.step c).mode = .closing c := by
    simp [Scan.step, Scan.modeAfter, Scan.outside, hmode, hback]
  cases s with
  | nil => exact Or.inl rfl
  | cons d s => exact Or.inr (by simpa [Scan.outside, hstep] using hnext)

namespace Shadows

/-- Inside a section the masked query stays inside until the section is closed. -/
theorem step_inSection (hst : st.depth ≤ 0) (hmark : isQuoteMark mark = true)
    (hin : st.Within mark) (hc : st.outside c = false) (hdepth : st'.depth = st.depth)
    (hmode : st'.mode = .quoted mark) :
    Shadows (st.step c) s (st'.step (st.shown c s)) := by
  have hdepth' : (st.step c).depth = st.depth := by simp [Scan.step, hc]
  have hgroup := Scan.inGroup_eq_false hst c
  by_cases hclose : st.closes c s = true
  · have hshown : st.shown c s = c := by
      simp [Scan.shown, Scan.hides, Scan.inSection, hclose, hgroup]
    have hmode' : st'.mode = st.mode := hmode.trans ((Scan.closes_iff hin c s).mp hclose).1.symm
    rw [hshown, Scan.step_congr hmode' hdepth]
    exact .outside (hdepth'.trans_le hst) (Scan.between_of_closes hmark hin hclose)
  · have hshown : st.shown c s = 'x' := by
      simp [Scan.shown, Scan.hides, Scan.inSection, hc, hclose]
    have hne : 'x' ≠ mark := by
      rintro rfl
      exact absurd hmark (by decide)
    obtain ⟨hin', hnext⟩ := Scan.within_step hin hc (Bool.eq_false_iff.mpr hclose)
    rw [hshown]
    refine .inSection (hdepth'.trans_le hst) hmark hin' hnext ?_ ?_
    · rw [hdepth']
      simp [Scan.step, Scan.outside, hmode, hdepth]
    · simp [Scan.step, Scan.modeAfter, Scan.outside, hmode, hne]

/-- The scan of the masked query goes on in step with the scan of the query. -/
theorem step (h : Shadows st (c :: s) st') :
    Shadows (st.step c) s (st'.step (st.shown c s)) := by
  cases h with
  | inGroup hst hdepth hmode => exact step_inGroup hst hdepth hmode c s
  | outside hst hnext =>
      have hc : st.outside c = true := by simpa [Scan.between] using hnext
      rw [Scan.shown_of_outside hc (Scan.inGroup_eq_false hst c)]
      exact step_outside hst hc s
  | inSection hst hmark hin hnext hdepth hmode =>
      exact step_inSection hst hmark hin hnext hdepth hmode

/-- The masked query has its top-level characters at the same places, and there they are shown. -/
theorem topLevel_eq (h : Shadows st (c :: s) st') :
    st'.topLevel (st.shown c s) = st.topLevel c := by
  cases h with
  | inGroup hst hdepth hmode =>
      have hzero : st.depth ≠ 0 := by omega
      simp [Scan.topLevel, hdepth, hzero]
  | outside hst hnext =>
      have hc : st.outside c = true := by simpa [Scan.between] using hnext
      rw [Scan.shown_of_outside hc (Scan.inGroup_eq_false hst c)]
  | inSection hst hmark hin hnext hdepth hmode =>
      have hc : st.outside c = false := hnext
      have hc' (d : Char) : st'.outside d = false := by simp [Scan.outside, hmode]
      simp [Scan.topLevel, hc, hc']

end Shadows

/-- From a place outside sections and groups the masked query goes on as the query does up to the
next delimiter. -/
theorem sameFront_maskFrom (hst : st.depth ≤ 0) (hnext : st.between s) :
    SameFront (maskFrom st s) s := by
  induction s generalizing st with
  | nil => exact .nil
  | cons c s ih =>
      have hc : st.outside c = true := by simpa [Scan.between] using hnext
      rw [maskFrom_cons, Scan.shown_of_outside hc (Scan.inGroup_eq_false hst c)]
      by_cases hd : c ∈ delimiters
      · exact .delimiter hd _ _
      · obtain ⟨hm, hw⟩ := plain_of_not_mem_delimiters hd
        refine .cons c (ih ?_ (Scan.between_of_plain (Scan.step_mode_of_plain hc hm) s))
        rwa [Scan.step_depth hc, hw, Int.add_zero]

/-- What recognisers that stop at delimiters find first in the masked query they find first in the
query. -/
theorem firstFrom_maskFrom {accepts : Text → Bool}
    (hfront : ∀ {s t}, SameFront s t → accepts s = accepts t) (h : Shadows st s st') :
    firstFrom accepts st' (maskFrom st s) = firstFrom accepts st s := by
  induction s generalizing st st' with
  | nil => rfl
  | cons c s ih =>
      have htop := h.topLevel_eq
      have hlater := ih h.step
      rw [maskFrom_cons, firstFrom, firstFrom, htop, hlater]
      by_cases hc : st.topLevel c = true
      · obtain ⟨⟨hout, -⟩, hdepth, -⟩ := (topLevel_iff st c).mp hc
        have hsame : SameFront (maskFrom st (c :: s)) (c :: s) :=
          sameFront_maskFrom (Int.le_of_eq hdepth) (Or.inr hout)
        rw [maskFrom_cons] at hsame
        rw [hfront hsame]
      · simp [hc]

theorem first?_mask {accepts : Text → Bool}
    (hfront : ∀ {s t}, SameFront s t → accepts s = accepts t) (sql : Text) :
    first? accepts (mask sql) = first? accepts sql :=
  firstFrom_maskFrom hfront (.outside (Int.le_refl 0) (Scan.between_of_plain rfl sql))

/-! ## Places -/

/-- Each keyword and the per-group limit are found at the same offsets in both queries. -/
def SamePlaces (s t : Text) : Prop :=
  (∀ k ∈ locatable, k.position? s = k.position? t) ∧ limitByPosition? s = limitByPosition? t

theorem samePlaces_mask (sql : Text) : SamePlaces (mask sql) sql := by
  refine ⟨fun k hk => ?_, first?_mask SameFront.startsLimitBy_eq sql⟩
  rw [Keyword.position?, Keyword.position?, first?_mask (SameFront.startsAt_eq hk) sql]

/-- Hidden characters decide nothing: the masked query has its keywords where the query has them,
and so has each query that differs from it in hidden characters only. -/
theorem samePlaces_of_outline (sql : Text) :
    SamePlaces (mask sql) sql ∧ ∀ other, outline other = outline sql → SamePlaces other sql := by
  refine ⟨samePlaces_mask sql, fun other h => ?_⟩
  have hmask : mask other = mask sql := by rw [mask, h, mask]
  obtain ⟨hkeywords, hperGroup⟩ := samePlaces_mask sql
  obtain ⟨hkeywords', hperGroup'⟩ := samePlaces_mask other
  rw [hmask] at hkeywords' hperGroup'
  exact ⟨fun k hk => (hkeywords' k hk).symm.trans (hkeywords k hk),
    hperGroup'.symm.trans hperGroup⟩

/-- A limit may move into a subquery and out of a literal without being seen. -/
theorem samePlaces_of_outline_hiddenLimit :
    outline "SELECT 'to be seen' FROM (t LIMIT 12) ORDER BY a".toList =
        outline "SELECT ')LIMIT 12 ' FROM (SELECT 142) ORDER BY a".toList ∧
      SamePlaces "SELECT 'to be seen' FROM (t LIMIT 12) ORDER BY a".toList
        "SELECT ')LIMIT 12 ' FROM (SELECT 142) ORDER BY a".toList :=
  ⟨by decide, (samePlaces_of_outline _).2 _ (by decide)⟩

end QuerySplice.Sql
