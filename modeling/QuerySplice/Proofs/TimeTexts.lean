import QuerySplice.Proofs.Calendars
import QuerySplice.Time.Stamp

/-!
# The texts of instants

A stamp with an offset is written as the universal time of its instant. The parts of the time stand
in the text with the widest one first, each with as many digits as its greatest value has, so texts
are compared character by character as the parts are, and the parts as the instants. The fraction of
a second may be missing; the text then goes on with the closing mark, and that comes before the
point of a fraction.
-/

namespace QuerySplice.Time

open Text

variable {width n m : Nat} {c d : Clock}

/-! ## Numerals of one width -/

theorem padded_one (h : n < 10) : padded 1 n = [n.digitChar] := by
  rw [padded, natText, Nat.toDigits_of_lt_base h]
  rfl

/-- A wider numeral has one more digit at its end. -/
theorem padded_succ (hwidth : 1 ≤ width) (n : Nat) :
    padded (width + 1) n = padded width (n / 10) ++ [(n % 10).digitChar] := by
  obtain ⟨rest, rfl⟩ := Nat.exists_eq_add_of_le' hwidth
  rw [padded, padded, natText, natText]
  by_cases h : n < 10
  · rw [Nat.toDigits_of_lt_base h, Nat.div_eq_of_lt h, Nat.mod_eq_of_lt h,
      Nat.toDigits_of_lt_base (show 0 < 10 by decide)]
    simp only [List.length_cons, List.length_nil, Nat.add_sub_cancel]
    rw [List.replicate_succ']
    rfl
  · rw [Nat.toDigits_of_base_le (by decide) (Nat.not_lt.mp h), List.length_append,
      List.length_singleton, Nat.add_sub_add_right, List.append_assoc]

theorem length_padded (hwidth : 1 ≤ width) (h : n < 10 ^ width) :
    (padded width n).length = width := by
  induction width, hwidth using Nat.le_induction generalizing n with
  | base =>
      rw [padded_one (by simpa using h)]
      rfl
  | succ width hwidth ih =>
      have hfront : n / 10 < 10 ^ width := by
        rw [Nat.pow_succ] at h
        omega
      rw [padded_succ hwidth, List.length_append, ih hfront]
      rfl

theorem sameOrder_digitChar (hn : n < 10) (hm : m < 10) : SameOrder n m n.digitChar m.digitChar := by
  have hall : ∀ n < 10, ∀ m < 10, (n < m ↔ n.digitChar < m.digitChar) ∧
      (n = m ↔ n.digitChar = m.digitChar) := by decide
  obtain ⟨hlt, heq⟩ := hall n hn m hm
  exact ⟨hlt, heq⟩

/-- Numerals of one width are ordered as their numbers are. -/
theorem sameOrder_padded (hwidth : 1 ≤ width) (hn : n < 10 ^ width) (hm : m < 10 ^ width) :
    SameOrder n m (padded width n) (padded width m) := by
  induction width, hwidth using Nat.le_induction generalizing n m with
  | base =>
      have hdigits := sameOrder_digitChar (by simpa using hn) (by simpa using hm)
      rw [padded_one (by simpa using hn), padded_one (by simpa using hm)]
      exact hdigits.trans (sameOrder_singleton _ _)
  | succ width hwidth ih =>
      have hn' : n / 10 < 10 ^ width := by
        rw [Nat.pow_succ] at hn
        omega
      have hm' : m / 10 < 10 ^ width := by
        rw [Nat.pow_succ] at hm
        omega
      have hdigits := sameOrder_digitChar (Nat.mod_lt n (by decide)) (Nat.mod_lt m (by decide))
      have hlength : (padded width (n / 10)).length = (padded width (m / 10)).length := by
        rw [length_padded hwidth hn', length_padded hwidth hm']
      have hsplit := (ih hn' hm').digit hlength (Nat.mod_lt n (by decide)) (Nat.mod_lt m (by decide))
        (hdigits.trans (sameOrder_singleton _ _))
      rw [padded_succ hwidth, padded_succ hwidth]
      rwa [Nat.div_add_mod', Nat.div_add_mod'] at hsplit

/-! ## The text of a clock -/

/-- What is written alike on both sides is passed over. -/
theorem SameOrder.behind {α : Type} [LT α] {x y : α} {t t' : Text} (h : SameOrder x y t t')
    (front : Text) : SameOrder x y (front ++ t) (front ++ t') := by
  constructor
  · rw [append_lt_append_iff rfl, h.lt_iff]
    simp
  · rw [append_eq_append_iff rfl, h.eq_iff]
    simp

/-- A numeral of a part is compared before what stands behind it. -/
theorem sameOrder_numeral {k k' : List Nat} {t t' : Text} (width : Nat) (hwidth : 1 ≤ width)
    (hn : n < 10 ^ width) (hm : m < 10 ^ width) (h : SameOrder k k' t t') :
    SameOrder (n :: k) (m :: k') (padded width n ++ t) (padded width m ++ t') := by
  have hlength : (padded width n).length = (padded width m).length := by
    rw [length_padded hwidth hn, length_padded hwidth hm]
  have hfront := (sameOrder_singleton n m).symm.trans (sameOrder_padded hwidth hn hm)
  exact hfront.append rfl hlength h

/-- The fraction of a second, if there is one, and the mark that closes the literal. -/
def fraction (micro : Nat) : Text :=
  (if micro = 0 then [] else '.' :: padded 6 micro) ++ ['\x27']

theorem sameOrder_fraction (hn : n < 10 ^ 6) (hm : m < 10 ^ 6) :
    SameOrder [n] [m] (fraction n) (fraction m) := by
  have hempty : SameOrder ([] : List Nat) [] ['\x27'] ['\x27'] := by
    constructor <;> simp
  rw [fraction, fraction]
  by_cases hn0 : n = 0
  · by_cases hm0 : m = 0
    · rw [if_pos hn0, if_pos hm0, hn0, hm0]
      constructor <;> simp
    · rw [if_pos hn0, if_neg hm0, hn0]
      constructor
      · apply iff_of_true
        · simpa [List.cons_lt_cons_iff] using Nat.pos_of_ne_zero hm0
        · rw [List.nil_append, List.cons_append, List.cons_lt_cons_iff]
          exact Or.inl (by decide)
      · apply iff_of_false
        · simpa using Ne.symm hm0
        · simp
  · by_cases hm0 : m = 0
    · rw [if_neg hn0, if_pos hm0, hm0]
      constructor
      · apply iff_of_false
        · simp [List.cons_lt_cons_iff]
        · rw [List.nil_append, List.cons_append, List.cons_lt_cons_iff]
          rintro (h | ⟨h, -⟩)
          · exact absurd h (by decide)
          · exact absurd h (by decide)
      · apply iff_of_false
        · simpa using hn0
        · simp
    · rw [if_neg hn0, if_neg hm0]
      exact (sameOrder_numeral 6 (by decide) hn hm hempty).behind ['.']

namespace Clock

/-- The clock as a literal of a query. -/
def literal (c : Clock) : Text := "TIMESTAMP '".toList ++ c.text ++ ['\x27']

/-- Every part of a clock that can be shown has its width in the text. -/
theorem parts_lt (h : c.isValid = true) :
    c.year < 10 ^ 4 ∧ c.month < 10 ^ 2 ∧ c.day < 10 ^ 2 ∧ c.hour < 10 ^ 2 ∧ c.minute < 10 ^ 2 ∧
      c.second < 10 ^ 2 ∧ c.micro < 10 ^ 6 := by
  obtain ⟨hproper, hyear⟩ := (isValid_iff c).mp h
  have hlengths : ∀ length ∈ monthLengths c.year, length ≤ 31 := by
    rw [monthLengths]
    split <;> decide
  have hday : (monthLengths c.year).getD (c.month - 1) 0 ≤ 31 := by
    rw [List.getD_eq_getElem?_getD]
    cases hlength : (monthLengths c.year)[c.month - 1]? with
    | none => exact Nat.zero_le 31
    | some length => exact hlengths length (List.mem_of_getElem? hlength)
  have hmonth := hproper.month
  have hday' := hproper.day
  have hhour := hproper.hour
  have hminute := hproper.minute
  have hsecond := hproper.second
  have hmicro := hproper.micro
  rw [lastYear] at hyear
  omega

/-- The literals of clocks are ordered as the parts of the clocks are. -/
theorem sameOrder_literal (hc : c.isValid = true) (hd : d.isValid = true) :
    SameOrder c.parts d.parts c.literal d.literal := by
  obtain ⟨hyear, hmonth, hday, hhour, hminute, hsecond, hmicro⟩ := parts_lt hc
  obtain ⟨hyear', hmonth', hday', hhour', hminute', hsecond', hmicro'⟩ := parts_lt hd
  have hfraction := sameOrder_fraction hmicro hmicro'
  have hseconds := (sameOrder_numeral 2 (by decide) hsecond hsecond' hfraction).behind [':']
  have hminutes := (sameOrder_numeral 2 (by decide) hminute hminute' hseconds).behind [':']
  have hhours := (sameOrder_numeral 2 (by decide) hhour hhour' hminutes).behind [' ']
  have hdays := (sameOrder_numeral 2 (by decide) hday hday' hhours).behind ['-']
  have hmonths := (sameOrder_numeral 2 (by decide) hmonth hmonth' hdays).behind ['-']
  have hyears := sameOrder_numeral 4 (by decide) hyear hyear' hmonths
  have htext : ∀ c : Clock, c.text ++ ['\x27'] = padded 4 c.year ++
      (['-'] ++ (padded 2 c.month ++ (['-'] ++ (padded 2 c.day ++ ([' '] ++ (padded 2 c.hour ++
        ([':'] ++ (padded 2 c.minute ++ ([':'] ++ (padded 2 c.second ++
          fraction c.micro)))))))))) := by
    intro c
    simp only [text, fraction, List.append_assoc, List.cons_append, List.nil_append]
  have hliteral : ∀ c : Clock, c.literal = "TIMESTAMP '".toList ++ (c.text ++ ['\x27']) :=
    fun c => List.append_assoc _ c.text _
  rw [hliteral, hliteral, htext, htext]
  exact hyears.behind _

/-- The literals of clocks are ordered as their times are. -/
theorem literal_sameOrder_micros (hc : c.isValid = true) (hd : d.isValid = true) :
    SameOrder c.literal d.literal c.micros d.micros := by
  have hproper := ((isValid_iff c).mp hc).1
  have hproper' := ((isValid_iff d).mp hd).1
  exact (sameOrder_literal hc hd).symm.trans (hproper.sameOrder_micros hproper').symm

end Clock

/-! ## Stamps with an offset -/

namespace Stamp

/-- The instant of a clock time with an offset, in microseconds of universal time since the start of
year 1. -/
def instant (clock : Clock) (offset : Int) : Int := clock.micros - 1000000 * offset

theorem universal?_eq (clock : Clock) (offset : Int) :
    (Stamp.mk clock (some offset)).universal? = Clock.ofMicros? (instant clock offset) := by
  have hmoment : clock.micros + 1000000 * -offset = instant clock offset := by
    rw [instant]
    omega
  simp only [universal?, Clock.ahead?, hmoment]

theorem expression?_eq_map (clock : Clock) (offset : Int) :
    (Stamp.mk clock (some offset)).expression? =
      (Clock.ofMicros? (instant clock offset)).map Clock.literal := by
  rw [expression?, universal?_eq]
  rfl

/-- The expression of a stamp with an offset is missing exactly if its instant lies outside the years
1 to 9999, and otherwise it is the literal of the one universal date and time of that instant. Two
expressions are the same text exactly if the instants are the same, and the texts are ordered,
character by character, as the instants are. -/
theorem expression?_denotes (clock clock' : Clock) (offset offset' : Int) :
    ((Stamp.mk clock (some offset)).expression? = none ↔
        instant clock offset < (Clock.newYear 1).micros ∨
          (Clock.newYear 10000).micros ≤ instant clock offset) ∧
      (∀ t, (Stamp.mk clock (some offset)).expression? = some t ↔
        ∃ u : Clock, u.isValid = true ∧ u.micros = instant clock offset ∧ t = u.literal) ∧
      ∀ t t', (Stamp.mk clock (some offset)).expression? = some t →
        (Stamp.mk clock' (some offset')).expression? = some t' →
          (t = t' ↔ instant clock offset = instant clock' offset') ∧
            (t < t' ↔ instant clock offset < instant clock' offset') := by
  have hsome : ∀ clock offset t, (Stamp.mk clock (some offset)).expression? = some t ↔
      ∃ u : Clock, u.isValid = true ∧ u.micros = instant clock offset ∧ t = u.literal := by
    intro clock offset t
    rw [expression?_eq_map, Option.map_eq_some_iff]
    simp only [Clock.ofMicros?_eq_some_iff]
    constructor
    · rintro ⟨u, ⟨hu, hmicros⟩, rfl⟩
      exact ⟨u, hu, hmicros, rfl⟩
    · rintro ⟨u, hu, hmicros, rfl⟩
      exact ⟨u, ⟨hu, hmicros⟩, rfl⟩
  refine ⟨?_, hsome clock offset, ?_⟩
  · rw [expression?_eq_map, Option.map_eq_none_iff]
    exact Clock.ofMicros?_eq_none_iff _
  · intro t t' ht ht'
    obtain ⟨u, hu, hmicros, rfl⟩ := (hsome clock offset t).mp ht
    obtain ⟨u', hu', hmicros', rfl⟩ := (hsome clock' offset' t').mp ht'
    obtain ⟨hlt, heq⟩ := Clock.literal_sameOrder_micros hu hu'
    rw [hmicros, hmicros'] at hlt heq
    exact ⟨heq, hlt⟩

/-- An offset carries a time over the end of a leap day and of a year, and past the years of the
calendar. -/
example : (Stamp.mk ⟨2024, 3, 1, 1, 59, 59, 7⟩ (some 7200)).expression? =
      some "TIMESTAMP '2024-02-29 23:59:59.000007'".toList ∧
    (Stamp.mk ⟨2023, 12, 31, 23, 0, 0, 0⟩ (some (-3600))).expression? =
      some "TIMESTAMP '2024-01-01 00:00:00'".toList ∧
    (Stamp.mk ⟨1, 1, 1, 0, 0, 0, 0⟩ (some 1)).expression? = none := by
  decide +kernel

end Stamp

end QuerySplice.Time
