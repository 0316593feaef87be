import QuerySplice.Proofs.Aggregates
import QuerySplice.Proofs.Outlines

/-!
# Aggregate calls in quotes

The skeleton of a query keeps the characters outside its quoted sections and the marks around these.
Queries with the same skeleton are scanned abreast: outside sections both scans are in the same
state, and inside one both are inside it. So their keywords stand at the same offsets, their
projections have the same skeleton, and the same aggregate calls start outside quotes.

The calls of a projection are looked for in its bare text, so one that starts inside a literal or a
quoted name counts as well. Two queries with the same skeleton are plain aggregates alike exactly
when a call outside quotes makes both of them one, or when calls in quotes do not tell them apart.
-/

namespace QuerySplice.Sql

open Text

variable {st st' : Scan} {c d mark : Char} {s t u v sql : Text} {k : Keyword} {p n : Nat}

/-- The characters of a query with nothing in the place of each one strictly inside a section. -/
def skeletonFrom : Scan → Text → List (Option Char)
  | _, [] => []
  | st, c :: s => (if st.inSection c s then none else some c) :: skeletonFrom (st.step c) s

def skeleton (sql : Text) : List (Option Char) := skeletonFrom .start sql

/-- Whether a call of an aggregate starts at a character that is read inside quotes, or outside
them. -/
def callsFrom (quoted : Bool) : Scan → Bool → Text → Bool
  | _, _, [] => false
  | st, inWord, c :: s =>
    (st.outside c != quoted && inWord != isWordChar c && startsAggregate (c :: s)) ||
      callsFrom quoted (st.step c) (isWordChar c) s

/-- Whether the query has no grouping and calls an aggregate in its projection, in quotes or outside
them. -/
def aggregates (quoted : Bool) (sql : Text) : Bool :=
  !hasClause .group sql && (projection? sql).any (callsFrom quoted .start false)

/-- A quoted name is not called, and a call in a literal is one of the bare text. -/
example : callsFrom false .start false "'max(', `max` (".toList = false ∧
    callsFrom true .start false "'max('".toList = true := by decide

/-! ## Calls outside and inside quotes -/

theorem callsAggregateFrom_eq_or (st : Scan) (inWord : Bool) (s : Text) :
    callsAggregateFrom inWord s = (callsFrom false st inWord s || callsFrom true st inWord s) := by
  induction s generalizing st inWord with
  | nil => rfl
  | cons c s ih =>
      rw [callsAggregateFrom, callsFrom, callsFrom, ih (st.step c)]
      cases st.outside c <;> simp [Bool.or_left_comm, Bool.or_assoc]

theorem isPlainAggregate_eq_or (sql : Text) :
    isPlainAggregate sql = (aggregates false sql || aggregates true sql) := by
  rw [isPlainAggregate_eq, aggregates, aggregates]
  cases projection? sql with
  | none => simp
  | some projection =>
      rw [Option.any_some, Option.any_some, Option.any_some, callsAggregate,
        callsAggregateFrom_eq_or .start, Bool.and_or_distrib_left]

/-! ## Queries with the same skeleton -/

theorem skeletonFrom_cons_iff :
    skeletonFrom st (c :: s) = skeletonFrom st' (d :: t) ↔
      st.inSection c s = st'.inSection d t ∧ (st.inSection c s = false → c = d) ∧
        skeletonFrom (st.step c) s = skeletonFrom (st'.step d) t := by
  rw [skeletonFrom, skeletonFrom, List.cons.injEq, ← and_assoc]
  refine and_congr_left fun _ => ?_
  cases st.inSection c s <;> cases st'.inSection d t <;> simp

theorem length_skeletonFrom (st : Scan) (s : Text) : (skeletonFrom st s).length = s.length := by
  induction s generalizing st with
  | nil => rfl
  | cons c s ih => rw [skeletonFrom, List.length_cons, ih, List.length_cons]

theorem length_eq_of_skeleton (h : skeletonFrom st s = skeletonFrom st' t) :
    s.length = t.length := by
  rw [← length_skeletonFrom st, h, length_skeletonFrom]

theorem Scan.inSection_of_outside (hc : st.outside c = true) (s : Text) :
    st.inSection c s = false := by simp [Scan.inSection, hc]

/-- How the scans of two queries with the same skeleton stand to each other, with `s` and `t` before
them: in the same place outside, or in the same section. -/
inductive Abreast (st : Scan) (s t : Text) : Scan → Prop
  | outside (hnext : st.between s) : Abreast st s t st
  | inSection {st' : Scan} {mark : Char} (hmark : isQuoteMark mark = true)
      (hin : st.Within mark) (hin' : st'.Within mark) (hdepth : st.depth = st'.depth)
      (hnext : nextIs st.outside s = false) (hnext' : nextIs st'.outside t = false) :
      Abreast st s t st'

namespace Abreast

/-- A mark that opens a section opens it in both queries. -/
theorem of_mark (hm : isQuoteMark c = true) (hc : st.outside c = true) :
    Abreast (st.step c) s t (st.step c) := by
  have hmode := step_mode_of_mark hm hc
  have hnext (s : Text) : nextIs (st.step c).outside s = false := by
    cases s <;> simp [Scan.outside, hmode]
  exact .inSection hm (Or.inl hmode) (Or.inl hmode) rfl (hnext s) (hnext t)

/-- The scans go on abreast. -/
theorem step (h : Abreast st (c :: s) (d :: t) st')
    (hskel : skeletonFrom st (c :: s) = skeletonFrom st' (d :: t)) :
    Abreast (st.step c) s t (st'.step d) := by
  obtain ⟨hsame, heq, -⟩ := skeletonFrom_cons_iff.mp hskel
  cases h with
  | outside hnext =>
      have hc : st.outside c = true := by simpa [Scan.between] using hnext
      obtain rfl := heq (Scan.inSection_of_outside hc s)
      by_cases hm : isQuoteMark c = true
      · exact of_mark hm hc
      · exact .outside (Scan.between_of_plain
          (Scan.step_mode_of_plain hc (Bool.eq_false_iff.mpr hm)) s)
  | inSection hmark hin hin' hdepth hnext hnext' =>
      have hc : st.outside c = false := hnext
      have hd : st'.outside d = false := hnext'
      have hcloses : st.closes c s = st'.closes d t := by
        simpa [Scan.inSection, hc, hd] using hsame
      by_cases hclose : st.closes c s = true
      · -- a mark that closes a section is shown, so it closes the section in both queries
        obtain rfl := heq (by simp [Scan.inSection, hclose])
        have hmode := ((Scan.closes_iff hin c s).mp hclose).1
        have hmode' := ((Scan.closes_iff hin' c t).mp (hcloses ▸ hclose)).1
        rw [← Scan.step_congr (hmode.trans hmode'.symm) hdepth]
        exact .outside (Scan.between_of_closes hmark hin hclose)
      · have hopen := Bool.eq_false_iff.mpr hclose
        obtain ⟨hstep, hinside⟩ := Scan.within_step hin hc hopen
        obtain ⟨hstep', hinside'⟩ := Scan.within_step hin' hd (hcloses ▸ hopen)
        refine .inSection hmark hstep hstep' ?_ hinside hinside'
        simpa [Scan.step, hc, hd] using hdepth

/-- What is read outside is the same in both queries, from the same place. -/
theorem outside_cases (h : Abreast st (c :: s) (d :: t) st')
    (hskel : skeletonFrom st (c :: s) = skeletonFrom st' (d :: t)) :
    (st.outside c = true ∧ st' = st ∧ d = c) ∨ (st.outside c = false ∧ st'.outside d = false) := by
  obtain ⟨-, heq, -⟩ := skeletonFrom_cons_iff.mp hskel
  cases h with
  | outside hnext =>
      have hc : st.outside c = true := by simpa [Scan.between] using hnext
      exact Or.inl ⟨hc, rfl, (heq (Scan.inSection_of_outside hc s)).symm⟩
  | inSection hmark hin hin' hdepth hnext hnext' => exact Or.inr ⟨hnext, hnext'⟩

/-- In front of what is read outside stands the same character in both queries. -/
theorem eq_of_outside (h : Abreast st (c :: s) (d :: t) st')
    (hskel : skeletonFrom st (c :: s) = skeletonFrom st' (d :: t))
    (hnext : nextIs (st.step c).outside s = true) : c = d := by
  obtain ⟨-, heq, -⟩ := skeletonFrom_cons_iff.mp hskel
  refine heq ?_
  cases h with
  | outside hbetween =>
      exact Scan.inSection_of_outside (by simpa [Scan.between] using hbetween) s
  | inSection hmark hin hin' hdepth hinside hinside' =>
      have hc : st.outside c = false := hinside
      by_contra hhidden
      have hclose : st.closes c s = false := by simpa [Scan.inSection, hc] using hhidden
      rw [(Scan.within_step hin hc hclose).2] at hnext
      cases hnext

end Abreast

/-- From a place outside sections both queries go on alike up to a delimiter and with it. -/
theorem sameFront_of_skeleton (hnext : st.between s)
    (hskel : skeletonFrom st s = skeletonFrom st t) : SameFront s t := by
  induction s generalizing st t with
  | nil =>
      obtain rfl := List.length_eq_zero_iff.mp (length_eq_of_skeleton hskel).symm
      exact .nil
  | cons c s ih =>
      cases t with
      | nil => cases hskel
      | cons d t =>
          obtain ⟨-, heq, hrest⟩ := skeletonFrom_cons_iff.mp hskel
          have hc : st.outside c = true := by simpa [Scan.between] using hnext
          obtain rfl := heq (Scan.inSection_of_outside hc s)
          by_cases hd : c ∈ delimiters
          · exact .delimiter hd _ _
          · have hm := (plain_of_not_mem_delimiters hd).1
            exact .cons c (ih (Scan.between_of_plain (Scan.step_mode_of_plain hc hm) s) hrest)

/-- Recognisers that stop at delimiters find the same first place in both queries. -/
theorem firstFrom_of_skeleton {accepts : Text → Bool}
    (hfront : ∀ {s t}, SameFront s t → accepts s = accepts t) (h : Abreast st s t st')
    (hskel : skeletonFrom st s = skeletonFrom st' t) :
    firstFrom accepts st s = firstFrom accepts st' t := by
  induction s generalizing st st' t with
  | nil =>
      obtain rfl := List.length_eq_zero_iff.mp (length_eq_of_skeleton hskel).symm
      rfl
  | cons c s ih =>
      cases t with
      | nil => cases hskel
      | cons d t =>
          have hlater := ih (h.step hskel) (skeletonFrom_cons_iff.mp hskel).2.2
          rw [firstFrom, firstFrom, hlater]
          rcases h.outside_cases hskel with ⟨hc, rfl, rfl⟩ | ⟨hc, hd⟩
          · have hsame : SameFront (d :: s) (d :: t) := sameFront_of_skeleton (Or.inr hc) hskel
            rw [hfront hsame]
          · simp [Scan.topLevel, hc, hd]

theorem abreast_start (s t : Text) : Abreast .start s t .start :=
  .outside (Scan.between_of_plain rfl s)

/-- A keyword stands at the same offset in queries with the same skeleton. -/
theorem position?_of_skeleton (hk : k ∈ locatable) (h : skeleton s = skeleton t) :
    k.position? s = k.position? t := by
  rw [Keyword.position?, Keyword.position?, first?, first?,
    firstFrom_of_skeleton (SameFront.startsAt_eq hk) (abreast_start s t) h]

theorem hasClause_of_skeleton (c : Clause) (h : skeleton s = skeleton t) :
    hasClause c s = hasClause c t := by
  rw [hasClause, hasClause, Clause.position?, Clause.position?,
    position?_of_skeleton c.keyword_mem_locatable h]

/-! ## Calls in texts with the same skeleton -/

/-- No character of the name of an aggregate is a delimiter in another case. -/
theorem plainText_of_aggregate {word w : Text} (hword : word ∈ aggregateWords)
    (hw : Spells word w) : PlainText w := by
  have hdelimiter : (delimiters.all fun d => letterKey d < 0x30 || letterKey d == 0x60) = true := by
    decide
  have hname : ∀ n < 128, isNameChar (Char.ofNat n) = true →
      0x30 ≤ smallForm (Char.ofNat n) ∧ smallForm (Char.ofNat n) ≠ 0x60 := by decide
  intro c hc
  obtain ⟨a, ha, hsame⟩ := hw.exists_sameLetter c hc
  obtain ⟨hplain, hascii⟩ := aggregateWords_plain word hword a ha
  have hsmall := hname a.toNat hascii
  rw [Char.ofNat_toNat] at hsmall
  obtain ⟨hge, hne⟩ := hsmall hplain
  refine plain_of_not_mem_delimiters fun hd => ?_
  have hkey := (sameLetter_iff hascii c).mp hsame
  have hlow : letterKey c < 0x30 ∨ letterKey c = 0x60 := by
    simpa using List.all_eq_true.mp hdelimiter c hd
  omega

theorem SameFront.startsAggregate_of (h : SameFront s t) (hs : startsAggregate s = true) :
    startsAggregate t = true := by
  rw [startsAggregate_eq, List.any_eq_true] at hs ⊢
  obtain ⟨word, hword, hcall⟩ := hs
  refine ⟨word, hword, ?_⟩
  rw [startsCall] at hcall ⊢
  cases hread : readWord word s with
  | none =>
      rw [hread] at hcall
      cases hcall
  | some r =>
      rw [hread] at hcall
      obtain ⟨w, rfl, hw⟩ := readWord_eq_some_iff.mp hread
      obtain ⟨r', rfl, hr⟩ := h.exists_append (plainText_of_aggregate hword hw)
      have hread' : readWord word (w ++ r') = some r' := readWord_eq_some_iff.mpr ⟨w, rfl, hw⟩
      rw [hread']
      exact (continuesCall_iff r').mpr (hr.callFollows ((continuesCall_iff r).mp hcall))

theorem SameFront.startsAggregate_eq (h : SameFront s t) :
    startsAggregate s = startsAggregate t := by
  rw [Bool.eq_iff_iff]
  exact ⟨h.startsAggregate_of, h.symm.startsAggregate_of⟩

/-- The same calls start outside quotes. -/
theorem callsFrom_of_skeleton {inWord inWord' : Bool} (h : Abreast st s t st')
    (hskel : skeletonFrom st s = skeletonFrom st' t)
    (hword : nextIs st.outside s = true → inWord = inWord') :
    callsFrom false st inWord s = callsFrom false st' inWord' t := by
  induction s generalizing st st' t inWord inWord' with
  | nil =>
      obtain rfl := List.length_eq_zero_iff.mp (length_eq_of_skeleton hskel).symm
      rfl
  | cons c s ih =>
      cases t with
      | nil => cases hskel
      | cons d t =>
          have hlater := ih (h.step hskel) (skeletonFrom_cons_iff.mp hskel).2.2
            fun hnext => congrArg isWordChar (h.eq_of_outside hskel hnext)
          rw [callsFrom, callsFrom, hlater]
          rcases h.outside_cases hskel with ⟨hc, rfl, rfl⟩ | ⟨hc, hd⟩
          · have hsame : SameFront (d :: s) (d :: t) := sameFront_of_skeleton (Or.inr hc) hskel
            rw [hword hc, hsame.startsAggregate_eq]
          · simp [hc, hd]

/-! ## The skeleton of a projection -/

/-- The skeleton depends on the mode of the scan alone. -/
theorem skeletonFrom_congr (hmode : st.mode = st'.mode) (s : Text) :
    skeletonFrom st s = skeletonFrom st' s := by
  induction s generalizing st st' with
  | nil => rfl
  | cons c s ih =>
      have hout : st.outside c = st'.outside c := by simp only [Scan.outside, hmode]
      have hsection : st.inSection c s = st'.inSection c s := by
        simp only [Scan.inSection, hout, Scan.closes, hmode]
      have hstep : (st.step c).mode = (st'.step c).mode := by
        simp only [Scan.step, Scan.modeAfter, hout, hmode]
      rw [skeletonFrom, skeletonFrom, hsection, ih hstep]

theorem Scan.closes_append (hst : st.Marked)
    (hseam : isQuoteMark c = true → s = [] → nextIs isQuoteMark t = false) :
    st.closes c (s ++ t) = st.closes c s := by
  cases s with
  | cons d s => cases hmode : st.mode <;> simp [Scan.closes, hmode]
  | nil =>
      cases hmode : st.mode with
      | quoted mark =>
          have hmark : isQuoteMark mark = true := by simpa [Scan.Marked, hmode] using hst
          by_cases hc : c = mark
          · have hnext := hseam (hc ▸ hmark) rfl
            cases t with
            | nil => rfl
            | cons d t =>
                have hd : d ≠ mark := by
                  rintro rfl
                  rw [nextIs_cons, hmark] at hnext
                  cases hnext
                simp [Scan.closes, hmode, hd]
          · simp [Scan.closes, hmode, hc]
      | _ => simp [Scan.closes, hmode]

/-- The skeletons of two texts put together, unless a mark at the end of the first is doubled by the
second. -/
theorem skeletonFrom_append (hst : st.Marked)
    (hseam : ∀ c ∈ s.getLast?, isQuoteMark c = true → nextIs isQuoteMark t = false) :
    skeletonFrom st (s ++ t) = skeletonFrom st s ++ skeletonFrom (st.after s) t := by
  induction s generalizing st with
  | nil => rfl
  | cons c s ih =>
      have hcloses : st.closes c (s ++ t) = st.closes c s :=
        Scan.closes_append hst fun hc hs => hseam c (by simp [hs]) hc
      have hlater := ih (Scan.marked_step hst c) fun d hd => hseam d (List.mem_getLast?_cons hd)
      rw [List.cons_append, skeletonFrom, skeletonFrom, Scan.inSection, hcloses, hlater]
      rfl

theorem skeleton_append_inj (hs : Scan.start.Marked) (hlength : s.length = t.length)
    (hseam : ∀ c ∈ s.getLast?, isQuoteMark c = true → nextIs isQuoteMark u = false)
    (hseam' : ∀ c ∈ t.getLast?, isQuoteMark c = true → nextIs isQuoteMark v = false)
    (h : skeleton (s ++ u) = skeleton (t ++ v)) :
    skeleton s = skeleton t ∧
      skeletonFrom (Scan.start.after s) u = skeletonFrom (Scan.start.after t) v := by
  rw [skeleton, skeleton, skeletonFrom_append hs hseam, skeletonFrom_append hs hseam'] at h
  refine List.append_inj h ?_
  exact (length_skeletonFrom _ s).trans (hlength.trans (length_skeletonFrom _ t).symm)

/-- Behind the word of the first `SELECT` the scan is plain, and the projection goes from there up to
the first `FROM`. -/
theorem exists_select_append (h : Keyword.select.position? sql = some p) :
    ∃ a body, sql = a ++ body ∧ a.length = p + 6 ∧ (Scan.start.after a).mode = .plain ∧
      (∀ c ∈ a.getLast?, isQuoteMark c = false) ∧
      projection? sql = (Keyword.from.position? body).map body.take := by
  have hfirst : first? Keyword.select.startsAt sql = some p := h
  obtain ⟨u, d, b, rfl, rfl, htop, hstarts⟩ := (firstFrom_eq_some_iff.mp hfirst).1
  obtain ⟨w, body, htext, hlength, hw, -, hsix⟩ := exists_select_word hstarts
  have hplain : PlainText w := hw.plainText (by decide)
  have hne : w ≠ [] := by
    rintro rfl
    cases hlength
  have hdrop : (u ++ d :: b).drop (u.length + 6) = body := by
    rw [htext, ← List.append_assoc, ← hlength, ← List.length_append, List.drop_left]
  refine ⟨u ++ w, body, ?_, ?_, ?_, fun c hc => ?_, ?_⟩
  · rw [htext, List.append_assoc]
  · rw [List.length_append, hlength]
  · have hquote : nextIs isQuoteMark w = false := by
      cases w with
      | nil => exact absurd rfl hne
      | cons e w => exact (hplain e List.mem_cons_self).1
    rw [(Scan.ready_of_topLevel htop).after_append hquote hne]
    exact (hplain.after rfl).1
  · rw [List.getLast?_append_of_ne_nil u hne] at hc
    exact (hplain c (List.mem_of_getLast? hc)).1
  · simp only [projection?, h, bind, Option.bind_some, List.drop_left, hsix, hdrop, pure]
    cases Keyword.from.position? body <;> rfl

/-- No `FROM` starts with a quote mark. -/
theorem nextIs_drop_from (h : Keyword.from.position? s = some n) :
    n < s.length ∧ nextIs isQuoteMark (s.drop n) = false := by
  have hfirst : first? Keyword.from.startsAt s = some n := h
  obtain ⟨u, d, b, rfl, rfl, htop, -⟩ := (firstFrom_eq_some_iff.mp hfirst).1
  rw [List.drop_left]
  exact ⟨by simp, ((topLevel_iff _ _).mp htop).1.2.1⟩

/-- Queries with the same skeleton have projections with the same skeleton. -/
theorem skeleton_projection (h : skeleton s = skeleton t) :
    (projection? s).map skeleton = (projection? t).map skeleton := by
  have hselect := position?_of_skeleton (k := .select) (by decide) h
  cases hp : Keyword.select.position? s with
  | none =>
      rw [hp] at hselect
      simp only [projection?, hp, ← hselect, bind, Option.bind_none]
  | some p =>
      rw [hp] at hselect
      obtain ⟨a, body, rfl, ha, hmode, hlast, hproj⟩ := exists_select_append hp
      obtain ⟨a', body', rfl, ha', hmode', hlast', hproj'⟩ := exists_select_append hselect.symm
      have hbody : skeleton body = skeleton body' := by
        have hinj := (skeleton_append_inj trivial (ha.trans ha'.symm)
          (fun c hc hm => absurd hm (by simp [hlast c hc]))
          (fun c hc hm => absurd hm (by simp [hlast' c hc])) h).2
        rw [skeleton, skeletonFrom_congr (show Scan.start.mode = _ from hmode.symm), hinj]
        exact skeletonFrom_congr hmode' body'
      have hfrom := position?_of_skeleton (k := .from) (by decide) hbody
      rw [hproj, hproj', ← hfrom]
      cases hq : Keyword.from.position? body with
      | none => rfl
      | some q =>
          rw [hq] at hfrom
          obtain ⟨hlt, hquote⟩ := nextIs_drop_from hq
          obtain ⟨hlt', hquote'⟩ := nextIs_drop_from hfrom.symm
          have hlength : (body.take q).length = (body'.take q).length := by
            rw [List.length_take_of_le (Nat.le_of_lt hlt), List.length_take_of_le (Nat.le_of_lt hlt')]
          have hcut : skeleton (body.take q ++ body.drop q) =
              skeleton (body'.take q ++ body'.drop q) := by
            rwa [List.take_append_drop, List.take_append_drop]
          have htake := (skeleton_append_inj trivial hlength (fun _ _ _ => hquote)
            (fun _ _ _ => hquote') hcut).1
          rw [Option.map_some, Option.map_some, Option.map_some, Option.map_some, htake]

/-! ## Plain aggregates alike -/

/-- Calls outside quotes are the same for queries with the same skeleton. -/
theorem aggregates_of_skeleton (h : skeleton s = skeleton t) :
    aggregates false s = aggregates false t := by
  have hprojection := skeleton_projection h
  rw [aggregates, aggregates, hasClause_of_skeleton .group h]
  cases hs : projection? s with
  | none =>
      rw [hs, Option.map_none, eq_comm, Option.map_eq_none_iff] at hprojection
      rw [hprojection]
  | some projection =>
      rw [hs, Option.map_some, eq_comm, Option.map_eq_some_iff] at hprojection
      obtain ⟨projection', ht, hskel⟩ := hprojection
      rw [ht, Option.any_some, Option.any_some,
        callsFrom_of_skeleton (abreast_start projection projection') hskel.symm fun _ => rfl]

/-- Whether a query takes an order is decided by its skeleton and by whether it is a plain
aggregate. -/
theorem takesOrder_of_skeleton (h : skeleton s = skeleton t)
    (hplain : isPlainAggregate s = isPlainAggregate t) (column : Text) :
    takesOrder column s = takesOrder column t := by
  have hempty : s.isEmpty = t.isEmpty := by
    rw [Bool.eq_iff_iff, List.isEmpty_iff_length_eq_zero, List.isEmpty_iff_length_eq_zero,
      length_eq_of_skeleton h]
  rw [takesOrder, takesOrder, orderSkip?, orderSkip?, hempty, hasClause_of_skeleton .order h, hplain]

/-- Queries that differ inside quoted sections only have the same calls outside quotes. They are
plain aggregates alike, and take an order alike, unless there is no such call and only one of them
has a call in quotes. -/
theorem isPlainAggregate_eq_iff (h : skeleton s = skeleton t) :
    aggregates false s = aggregates false t ∧
      (isPlainAggregate s = isPlainAggregate t ↔
        aggregates false s = true ∨ aggregates true s = aggregates true t) ∧
      (isPlainAggregate s = isPlainAggregate t →
        ∀ column, takesOrder column s = takesOrder column t) := by
  have hsame := aggregates_of_skeleton h
  refine ⟨hsame, ?_, takesOrder_of_skeleton h⟩
  rw [isPlainAggregate_eq_or, isPlainAggregate_eq_or, ← hsame]
  cases aggregates false s <;> simp

/-- Two queries that call an aggregate outside quotes, and one of them another one in quotes. -/
def quotedSamples : Text × Text :=
  ("SELECT 'sum(', Max\t('\\'') FROM t".toList, "SELECT 'a''b', Max\t('()') FROM t".toList)

theorem isPlainAggregate_eq_iff_quotedSamples :
    skeleton quotedSamples.1 = skeleton quotedSamples.2 ∧ aggregates true quotedSamples.1 = true ∧
      isPlainAggregate quotedSamples.1 = isPlainAggregate quotedSamples.2 ∧
      ∀ column, takesOrder column quotedSamples.1 = takesOrder column quotedSamples.2 := by
  have hskel : skeleton quotedSamples.1 = skeleton quotedSamples.2 := by decide
  obtain ⟨-, hplain, hother⟩ := isPlainAggregate_eq_iff hskel
  have hsame := hplain.mpr (Or.inl (by decide))
  exact ⟨hskel, by decide, hsame, hother hsame⟩

/-- A call in a literal makes a plain aggregate of a query without one. -/
theorem not_isPlainAggregate_eq_literal :
    ¬ ∀ s t, skeleton s = skeleton t → isPlainAggregate s = isPlainAggregate t := by
  intro hall
  have hliteral := hall "SELECT 'count(' FROM t".toList "SELECT 'xxxxxx' FROM t".toList (by decide)
  exact absurd hliteral (by decide)

end QuerySplice.Sql
