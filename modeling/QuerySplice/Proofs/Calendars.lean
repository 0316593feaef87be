import Mathlib.Algebra.Ring.Nat
import Mathlib.Order.Monotone.Basic
import QuerySplice.Time.Calendar

/-!
# The calendar and the count of microseconds

The days of a date are those of the years before it, of the months before it in its year and of the
days before it in its month. Each of these counts grows in steps, and what lies behind the last step
is less than the next one. So of two counts the one is less whose date and time come first when they
are compared part by part, and taking a count apart step by step gives back the date it was made
from.
-/

namespace QuerySplice.Time

variable {α β γ : Type} [LT α] [LT β] [LT γ] {a a' b b' year month : Nat} {k k' : List Nat}
  {c d : Clock}

/-! ## Two orders that agree -/

/-- Two values are ordered as two others are. -/
structure SameOrder (x y : α) (x' y' : β) : Prop where
  lt_iff : x < y ↔ x' < y'
  eq_iff : x = y ↔ x' = y'

/-- A count that is made in steps is ordered by the steps, and by what lies behind them where they
are equal. -/
theorem SameOrder.cons {f : Nat → Nat} (hf : Monotone f) (hb : f a + b < f (a + 1))
    (hb' : f a' + b' < f (a' + 1)) (h : a = a' → SameOrder b b' k k') :
    SameOrder (f a + b) (f a' + b') (a :: k) (a' :: k') := by
  rcases Nat.lt_trichotomy a a' with hlt | rfl | hlt
  · have hstep : f (a + 1) ≤ f a' := hf hlt
    constructor
    · rw [List.cons_lt_cons_iff]
      exact iff_of_true (by omega) (Or.inl hlt)
    · rw [List.cons.injEq]
      exact iff_of_false (by omega) fun heq => absurd heq.1 (by omega)
  · obtain ⟨hlt, heq⟩ := h rfl
    constructor
    · rw [List.cons_lt_cons_iff, ← hlt]
      omega
    · rw [List.cons.injEq, ← heq]
      omega
  · have hstep : f (a' + 1) ≤ f a := hf hlt
    constructor
    · rw [List.cons_lt_cons_iff]
      exact iff_of_false (by omega) fun hless => by omega
    · rw [List.cons.injEq]
      exact iff_of_false (by omega) fun heq => absurd heq.1 (by omega)

theorem sameOrder_singleton (a a' : α) : SameOrder a a' [a] [a'] := by
  constructor
  · simp [List.cons_lt_cons_iff]
  · simp

theorem SameOrder.symm {x y : α} {x' y' : β} (h : SameOrder x y x' y') : SameOrder x' y' x y :=
  ⟨h.lt_iff.symm, h.eq_iff.symm⟩

theorem SameOrder.trans {x y : α} {x' y' : β} {x'' y'' : γ} (h : SameOrder x y x' y')
    (h' : SameOrder x' y' x'' y'') : SameOrder x y x'' y'' :=
  ⟨h.lt_iff.trans h'.lt_iff, h.eq_iff.trans h'.eq_iff⟩

/-- Of texts that begin alike in length, the beginnings are compared first. -/
theorem append_lt_append_iff {u u' t t' : List α} (hlength : u.length = u'.length) :
    u ++ t < u' ++ t' ↔ u < u' ∨ u = u' ∧ t < t' := by
  induction u generalizing u' with
  | nil =>
      obtain rfl := List.length_eq_zero_iff.mp hlength.symm
      simp
  | cons x u ih =>
      cases u' with
      | nil => simp at hlength
      | cons x' u' =>
          rw [List.cons_append, List.cons_append, List.cons_lt_cons_iff, List.cons_lt_cons_iff,
            ih (Nat.succ.inj hlength), List.cons.injEq, and_or_left, and_assoc, or_assoc]

omit [LT α] in
theorem append_eq_append_iff {u u' t t' : List α} (hlength : u.length = u'.length) :
    u ++ t = u' ++ t' ↔ u = u' ∧ t = t' := by
  constructor
  · intro h
    exact List.append_inj h hlength
  · rintro ⟨rfl, rfl⟩
    rfl

theorem SameOrder.append {u u' t t' : List α} {v v' s s' : List β} (h : SameOrder u u' v v')
    (hu : u.length = u'.length) (hv : v.length = v'.length) (ht : SameOrder t t' s s') :
    SameOrder (u ++ t) (u' ++ t') (v ++ s) (v' ++ s') := by
  constructor
  · rw [append_lt_append_iff hu, append_lt_append_iff hv, h.lt_iff, h.eq_iff, ht.lt_iff]
  · rw [append_eq_append_iff hu, append_eq_append_iff hv, h.eq_iff, ht.eq_iff]

/-- A digit of a base behind a count is compared where the counts are equal. -/
theorem SameOrder.digit {base : Nat} {u u' t t' : List α} (h : SameOrder a a' u u')
    (hu : u.length = u'.length) (hb : b < base) (hb' : b' < base) (ht : SameOrder b b' t t') :
    SameOrder (a * base + b) (a' * base + b') (u ++ t) (u' ++ t') := by
  have hstep : ∀ {b}, b < base → ∀ a, a * base + b < (a + 1) * base := by
    intro b hb a
    rw [Nat.succ_mul]
    exact Nat.add_lt_add_left hb _
  have hpair : SameOrder (a * base + b) (a' * base + b') [a, b] [a', b'] := by
    apply SameOrder.cons (f := fun a => a * base)
    · exact fun _ _ hle => Nat.mul_le_mul_right base hle
    · exact hstep hb a
    · exact hstep hb' a'
    · exact fun _ => sameOrder_singleton b b'
  have hfront : SameOrder [a] [a'] u u' := (sameOrder_singleton a a').symm.trans h
  have hback : SameOrder [b] [b'] t t' := (sameOrder_singleton b b').symm.trans ht
  exact hpair.trans (hfront.append rfl hu hback)

/-! ## Years -/

def yearLength (year : Nat) : Nat := if isLeapYear year then 366 else 365

/-- The days before a year, by the periods of 400, 100, 4 and 1 years before it. -/
theorem daysBeforeYear_of_periods {q c f r : Nat} (h : year = 400 * q + 100 * c + 4 * f + r + 1)
    (hc : c < 4) (hf : f < 25) (hr : r < 4) :
    daysBeforeYear year = 146097 * q + 36524 * c + 1461 * f + 365 * r := by
  simp only [daysBeforeYear]
  omega

/-- A leap year ends a period of 4 years, and one of 400 years if it ends one of 100 years. -/
theorem yearLength_of_periods {q c f r : Nat} (h : year = 400 * q + 100 * c + 4 * f + r + 1)
    (hc : c < 4) (hf : f < 25) (hr : r < 4) :
    yearLength year = if r = 3 ∧ (f = 24 → c = 3) then 366 else 365 := by
  have hfour : year % 4 = 0 ↔ r = 3 := by omega
  have hcentury : year % 100 = 0 ↔ r = 3 ∧ f = 24 := by omega
  have hquad : year % 400 = 0 ↔ r = 3 ∧ f = 24 ∧ c = 3 := by omega
  have hleap : isLeapYear year = true ↔ r = 3 ∧ (f = 24 → c = 3) := by
    simp only [isLeapYear, Bool.and_eq_true, Bool.or_eq_true, beq_iff_eq, bne_iff_ne, ne_eq, hfour,
      hcentury, hquad]
    omega
  simp only [yearLength, hleap]

theorem exists_periods (h : 1 ≤ year) :
    ∃ q c f r, year = 400 * q + 100 * c + 4 * f + r + 1 ∧ c < 4 ∧ f < 25 ∧ r < 4 := by
  refine ⟨(year - 1) / 400, (year - 1) % 400 / 100, (year - 1) % 100 / 4, (year - 1) % 4, ?_⟩
  omega

/-- The years follow each other without a gap. -/
theorem daysBeforeYear_succ (h : 1 ≤ year) :
    daysBeforeYear (year + 1) = daysBeforeYear year + yearLength year := by
  obtain ⟨q, c, f, r, hyear, hc, hf, hr⟩ := exists_periods h
  rw [daysBeforeYear_of_periods hyear hc hf hr, yearLength_of_periods hyear hc hf hr]
  -- the next year goes on with the innermost period that has not come to its end
  by_cases hlast : r < 3
  · have hnext : year + 1 = 400 * q + 100 * c + 4 * f + (r + 1) + 1 := by omega
    rw [daysBeforeYear_of_periods hnext hc hf (by omega), if_neg (by omega)]
    omega
  by_cases hfour : f < 24
  · have hnext : year + 1 = 400 * q + 100 * c + 4 * (f + 1) + 0 + 1 := by omega
    rw [daysBeforeYear_of_periods (r := 0) hnext hc (by omega) (by omega), if_pos (by omega)]
    omega
  by_cases hcentury : c < 3
  · have hnext : year + 1 = 400 * q + 100 * (c + 1) + 4 * 0 + 0 + 1 := by omega
    rw [daysBeforeYear_of_periods (f := 0) (r := 0) hnext (by omega) (by omega) (by omega),
      if_neg (by omega)]
    omega
  · have hnext : year + 1 = 400 * (q + 1) + 100 * 0 + 4 * 0 + 0 + 1 := by omega
    rw [daysBeforeYear_of_periods (c := 0) (f := 0) (r := 0) hnext (by omega) (by omega)
      (by omega), if_pos (by omega)]
    omega

theorem monotone_daysBeforeYear : Monotone daysBeforeYear := by
  apply monotone_nat_of_le_succ
  intro year
  cases year with
  | zero => exact Nat.le_refl 0
  | succ year =>
      rw [daysBeforeYear_succ (Nat.le_add_left 1 year)]
      exact Nat.le_add_right _ _

/-- The year that is found holds the day, at the place that is found. -/
theorem yearOfDays_spec (days : Nat) :
    1 ≤ (yearOfDays days).1 ∧
      daysBeforeYear (yearOfDays days).1 + (yearOfDays days).2 = days ∧
      (yearOfDays days).2 < yearLength (yearOfDays days).1 := by
  simp only [yearOfDays]
  generalize hq : days / 146097 = q
  generalize hrest : days % 146097 = rest
  generalize hc : min (rest / 36524) 3 = c
  generalize hrest' : rest - 36524 * c = rest'
  generalize hf : rest' / 1461 = f
  generalize hrest'' : rest' % 1461 = rest''
  generalize hr : min (rest'' / 365) 3 = r
  have hcentury : c < 4 ∧ rest = 36524 * c + rest' ∧ (rest' < 36524 ∨ c = 3 ∧ rest' = 36524) := by
    omega
  have hfour : f < 25 ∧ rest' = 1461 * f + rest'' ∧ rest'' < 1461 := by omega
  have hyear : r < 4 ∧ 365 * r ≤ rest'' ∧ (rest'' < 365 * r + 365 ∨ r = 3) := by omega
  refine ⟨Nat.le_add_left 1 _, ?_, ?_⟩
  · rw [daysBeforeYear_of_periods rfl hcentury.1 hfour.1 hyear.1]
    omega
  · rw [yearLength_of_periods rfl hcentury.1 hfour.1 hyear.1]
    split
    · omega
    · omega

/-! ## Months -/

theorem sum_monthLengths (year : Nat) : (monthLengths year).sum = yearLength year := by
  rw [monthLengths, yearLength]
  split
  · rfl
  · rfl

theorem sum_take_succ (lengths : List Nat) (i : Nat) :
    (lengths.take (i + 1)).sum = (lengths.take i).sum + lengths.getD i 0 := by
  rw [List.take_add_one, List.sum_append, List.getD_eq_getElem?_getD]
  cases lengths[i]? with
  | none => rfl
  | some length => simp

/-- The months of a year follow each other without a gap. -/
theorem daysBeforeMonth_succ (year : Nat) (h : 1 ≤ month) :
    daysBeforeMonth year (month + 1) =
      daysBeforeMonth year month + (monthLengths year).getD (month - 1) 0 := by
  obtain ⟨i, rfl⟩ := Nat.exists_eq_add_of_le' h
  exact sum_take_succ (monthLengths year) i

theorem monotone_daysBeforeMonth (year : Nat) : Monotone (daysBeforeMonth year) := by
  apply monotone_nat_of_le_succ
  intro month
  cases month with
  | zero => exact Nat.le_refl 0
  | succ month =>
      rw [daysBeforeMonth_succ year (Nat.le_add_left 1 month)]
      exact Nat.le_add_right _ _

/-- After the last month all days of the year are over. -/
theorem daysBeforeMonth_end (year : Nat) : daysBeforeMonth year 13 = yearLength year := by
  rw [← sum_monthLengths]
  rfl

/-- The month that is found holds the place, on the day that is found. -/
theorem monthOfDays_spec (lengths : List Nat) (month : Nat) {place : Nat}
    (h : place < lengths.sum) :
    ∃ i rest, monthOfDays month lengths place = (month + i, rest + 1) ∧ i < lengths.length ∧
      rest < lengths.getD i 0 ∧ (lengths.take i).sum + rest = place := by
  induction lengths generalizing month place with
  | nil => exact absurd h (Nat.not_lt_zero _)
  | cons length lengths ih =>
      rw [monthOfDays]
      by_cases hplace : place < length
      · rw [if_pos hplace]
        exact ⟨0, place, rfl, Nat.zero_lt_succ _, hplace, Nat.zero_add _⟩
      · rw [if_neg hplace]
        rw [List.sum_cons] at h
        have hbehind : place - length < lengths.sum := by omega
        obtain ⟨i, rest, hfound, hi, hrest, hsum⟩ := ih (month + 1) hbehind
        refine ⟨i + 1, rest, ?_, ?_, hrest, ?_⟩
        · rw [hfound, Nat.add_assoc, Nat.add_comm 1 i]
        · exact Nat.succ_lt_succ hi
        · rw [List.take_succ_cons, List.sum_cons]
          omega

/-! ## Clocks -/

namespace Clock

/-- The parts name a date of the calendar, in whatever year, and a time of the day. -/
structure IsProper (c : Clock) : Prop where
  year : 1 ≤ c.year
  month : 1 ≤ c.month ∧ c.month ≤ 12
  day : 1 ≤ c.day ∧ c.day ≤ (monthLengths c.year).getD (c.month - 1) 0
  hour : c.hour < 24
  minute : c.minute < 60
  second : c.second < 60
  micro : c.micro < 1000000

theorem isValid_iff (c : Clock) : c.isValid = true ↔ c.IsProper ∧ c.year ≤ lastYear := by
  rw [isValid, decide_eq_true_eq]
  constructor
  · rintro ⟨hyear, hlast, hmonth, hmonth', hday, hday', hhour, hminute, hsecond, hmicro⟩
    exact ⟨⟨hyear, ⟨hmonth, hmonth'⟩, ⟨hday, hday'⟩, hhour, hminute, hsecond, hmicro⟩, hlast⟩
  · rintro ⟨h, hlast⟩
    exact ⟨h.year, hlast, h.month.1, h.month.2, h.day.1, h.day.2, h.hour, h.minute, h.second,
      h.micro⟩

/-- The parts of a clock, the widest first. -/
def parts (c : Clock) : List Nat :=
  [c.year, c.month, c.day, c.hour, c.minute, c.second, c.micro]

theorem parts_inj (h : c.parts = d.parts) : c = d := by
  obtain ⟨_, _, _, _, _, _, _⟩ := c
  obtain ⟨_, _, _, _, _, _, _⟩ := d
  simpa [parts] using h

/-- The next date of the calendar: in the same month, in the next one, or in the next year. -/
def nextDay (c : Clock) : Clock :=
  if c.day < (monthLengths c.year).getD (c.month - 1) 0 then { c with day := c.day + 1 }
  else if c.month < 12 then { c with month := c.month + 1, day := 1 }
  else { c with year := c.year + 1, month := 1, day := 1 }

namespace IsProper

/-- A date lies in its month. -/
theorem lt_nextMonth (h : c.IsProper) :
    daysBeforeMonth c.year c.month + (c.day - 1) < daysBeforeMonth c.year (c.month + 1) := by
  have hday := h.day
  rw [daysBeforeMonth_succ c.year h.month.1]
  omega

/-- A date lies in its year. -/
theorem lt_yearLength (h : c.IsProper) :
    daysBeforeMonth c.year c.month + (c.day - 1) < yearLength c.year := by
  have hmonth : daysBeforeMonth c.year (c.month + 1) ≤ daysBeforeMonth c.year 13 := by
    apply monotone_daysBeforeMonth
    exact Nat.succ_le_succ h.month.2
  rw [daysBeforeMonth_end] at hmonth
  exact Nat.lt_of_lt_of_le h.lt_nextMonth hmonth

/-- The count of days is that of the dates of the calendar, one after the other. -/
theorem days_nextDay (h : c.IsProper) : c.nextDay.days = c.days + 1 := by
  have hday := h.day
  have hzero : ∀ year, daysBeforeMonth year 1 = 0 := fun year => rfl
  by_cases hsame : c.day < (monthLengths c.year).getD (c.month - 1) 0
  · rw [nextDay, if_pos hsame]
    simp only [days]
    omega
  · have hnext := daysBeforeMonth_succ c.year h.month.1
    by_cases hmonth : c.month < 12
    · rw [nextDay, if_neg hsame, if_pos hmonth]
      simp only [days]
      omega
    · have hlast : c.month + 1 = 13 := by
        have hle := h.month.2
        omega
      rw [hlast, daysBeforeMonth_end] at hnext
      rw [nextDay, if_neg hsame, if_neg hmonth]
      simp only [days, daysBeforeYear_succ h.year, hzero]
      omega

theorem sameOrder_days (hc : c.IsProper) (hd : d.IsProper) :
    SameOrder c.days d.days [c.year, c.month, c.day] [d.year, d.month, d.day] := by
  have hdays : ∀ c : Clock, c.days =
      daysBeforeYear c.year + (daysBeforeMonth c.year c.month + (c.day - 1)) := by
    intro c
    rw [days, Nat.add_assoc]
  rw [hdays, hdays]
  apply SameOrder.cons monotone_daysBeforeYear
  · rw [daysBeforeYear_succ hc.year]
    exact Nat.add_lt_add_left hc.lt_yearLength _
  · rw [daysBeforeYear_succ hd.year]
    exact Nat.add_lt_add_left hd.lt_yearLength _
  intro hyear
  have hmonth := hd.lt_nextMonth
  rw [← hyear] at hmonth ⊢
  apply SameOrder.cons (monotone_daysBeforeMonth c.year)
  · exact hc.lt_nextMonth
  · exact hmonth
  intro _
  have hday := hc.day
  have hday' := hd.day
  constructor
  · simp only [List.cons_lt_cons_iff, List.not_lt_nil, and_false, or_false]
    omega
  · simp only [List.cons.injEq, and_true]
    omega

/-- Times are ordered as the parts of their clocks are, the widest part first. -/
theorem sameOrder_micros (hc : c.IsProper) (hd : d.IsProper) :
    SameOrder c.micros d.micros c.parts d.parts := by
  have hhour := (sameOrder_days hc hd).digit rfl hc.hour hd.hour (sameOrder_singleton _ _)
  have hminute := hhour.digit rfl hc.minute hd.minute (sameOrder_singleton _ _)
  have hsecond := hminute.digit rfl hc.second hd.second (sameOrder_singleton _ _)
  obtain ⟨hlt, heq⟩ := hsecond.digit rfl hc.micro hd.micro (sameOrder_singleton _ _)
  constructor
  · rw [micros, micros, Int.ofNat_lt]
    exact hlt
  · rw [micros, micros, Int.natCast_inj]
    exact heq

theorem eq_of_micros_eq (hc : c.IsProper) (hd : d.IsProper) (h : c.micros = d.micros) : c = d :=
  parts_inj ((sameOrder_micros hc hd).eq_iff.mp h)

end IsProper

/-- Taking a count apart gives a date and a time. -/
theorem isProper_ofCount (n : Nat) : (ofCount n).IsProper ∧ (ofCount n).micros = n := by
  generalize hdays : n / 1000000 / 60 / 60 / 24 = days
  obtain ⟨hyear, hsum, hplace⟩ := yearOfDays_spec days
  rw [← sum_monthLengths] at hplace
  obtain ⟨i, rest, hfound, hi, hrest, hsum'⟩ := monthOfDays_spec _ 1 hplace
  have hclock : ofCount n = ⟨(yearOfDays days).1, 1 + i, rest + 1, n / 1000000 / 60 / 60 % 24,
      n / 1000000 / 60 % 60, n / 1000000 % 60, n % 1000000⟩ := by
    simp only [ofCount, hdays, hfound]
  have hmonths : i < 12 := hi
  have hday : (ofCount n).days = days := by
    rw [hclock]
    calc daysBeforeYear (yearOfDays days).1 + daysBeforeMonth (yearOfDays days).1 (1 + i) + rest
        = daysBeforeYear (yearOfDays days).1 +
            (((monthLengths (yearOfDays days).1).take i).sum + rest) := by
          rw [Nat.add_assoc, Nat.add_comm 1 i]
          rfl
      _ = days := by rw [hsum', hsum]
  constructor
  · rw [hclock]
    constructor
    · exact hyear
    · dsimp only
      omega
    · simp only [Nat.add_sub_cancel_left]
      omega
    · exact Nat.mod_lt _ (by decide)
    · exact Nat.mod_lt _ (by decide)
    · exact Nat.mod_lt _ (by decide)
    · exact Nat.mod_lt _ (by decide)
  · rw [micros, hday, hclock, Int.natCast_inj]
    dsimp only
    omega

/-- The first moment of a year. -/
def newYear (year : Nat) : Clock := ⟨year, 1, 1, 0, 0, 0, 0⟩

theorem isProper_newYear (h : 1 ≤ year) : (newYear year).IsProper := by
  constructor
  · exact h
  all_goals simp [newYear, monthLengths]

/-- A clock shows a year before another one exactly at the moments before that year begins. -/
theorem IsProper.year_lt_iff (hc : c.IsProper) (h : 1 ≤ year) :
    c.year < year ↔ c.micros < (newYear year).micros := by
  rw [(sameOrder_micros hc (isProper_newYear h)).lt_iff]
  have hmonth := hc.month
  have hday := hc.day
  simp only [parts, newYear, List.cons_lt_cons_iff, List.not_lt_nil, and_false, or_false]
  omega

theorem isShown_ofCount_iff (n : Nat) :
    (ofCount n).isShown = true ↔ (ofCount n).year ≤ lastYear := by
  have hyear := (isProper_ofCount n).1.year
  rw [isShown, decide_eq_true_eq]
  omega

/-- The clock of a moment is the one date and time of the years that can be shown at which the count
is that of the moment. -/
theorem ofMicros?_eq_some_iff (x : Int) (c : Clock) :
    ofMicros? x = some c ↔ c.isValid = true ∧ c.micros = x := by
  rw [ofMicros?, isValid_iff]
  cases x with
  | ofNat n =>
      obtain ⟨hproper, hmicros⟩ := isProper_ofCount n
      constructor
      · intro h
        split at h
        · next hshown =>
            obtain rfl := Option.some.inj h
            exact ⟨⟨hproper, (isShown_ofCount_iff n).mp hshown⟩, hmicros⟩
        · cases h
      · rintro ⟨⟨hc, hlast⟩, h⟩
        obtain rfl : c = ofCount n := hc.eq_of_micros_eq hproper (h.trans hmicros.symm)
        rw [ofMicros, if_pos ((isShown_ofCount_iff n).mpr hlast)]
  | negSucc n =>
      have hbefore : ¬(ofMicros (.negSucc n)).isShown = true := by
        rw [ofMicros]
        decide
      rw [if_neg hbefore]
      apply iff_of_false
      · simp
      · rintro ⟨-, h⟩
        have hpositive : 0 ≤ c.micros := Int.natCast_nonneg _
        omega

/-- A moment has no clock exactly before the first year and after the last one. -/
theorem ofMicros?_eq_none_iff (x : Int) :
    ofMicros? x = none ↔ x < (newYear 1).micros ∨ (newYear (lastYear + 1)).micros ≤ x := by
  have hfirst : (newYear 1).micros = 0 := rfl
  rw [hfirst, ofMicros?]
  cases x with
  | ofNat n =>
      obtain ⟨hproper, hmicros⟩ := isProper_ofCount n
      have hyear := hproper.year_lt_iff (Nat.le_add_left 1 lastYear)
      rw [Nat.lt_succ_iff, ← isShown_ofCount_iff, hmicros] at hyear
      have hnone : (if (ofCount n).isShown then some (ofCount n) else none) = none ↔
          ¬(ofCount n).isShown = true := by simp
      rw [ofMicros, hnone, hyear, Int.not_lt]
      constructor
      · exact Or.inr
      · rintro (h | h)
        · exact absurd h (Int.not_lt.mpr (Int.natCast_nonneg n))
        · exact h
  | negSucc n =>
      apply iff_of_true
      · rfl
      · exact Or.inl (Int.negSucc_lt_zero n)

end Clock

end QuerySplice.Time
