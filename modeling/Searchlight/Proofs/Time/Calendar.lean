import Searchlight.Time.Calendar
import Mathlib.Tactic.IntervalCases

/-!
# Days and dates

Every day has a date that exists (`Date.valid_ofDays`), and it is the day of that date
(`Date.toDays_ofDays`). Within a period of 400 years the year of a day is found by one division,
after the leap days before it are taken away; where that quotient steps from one year to the next
is checked year by year, between the steps it can only grow.
-/

namespace Searchlight.Date

/-! ## Years of a period -/

def commonDays (dayOfEra : Int) : Int :=
  dayOfEra - dayOfEra / 1460 + dayOfEra / 36524 - dayOfEra / 146096

def yearStart (yearOfEra : Int) : Int := 365 * yearOfEra + yearOfEra / 4 - yearOfEra / 100

theorem commonDays_mono {d e : Int} (h : d ≤ e) : commonDays d ≤ commonDays e := by
  simp only [commonDays]
  omega

theorem commonDays_yearStart : ∀ y : Nat, y < 400 →
    365 * (y : Int) ≤ commonDays (yearStart y) ∧
      (y ≠ 0 → commonDays (yearStart y - 1) < 365 * (y : Int)) := by
  decide +kernel

theorem lt_yearStart_iff {y : Nat} (hy : y < 400) (hne : y ≠ 0) {d : Int} :
    d < yearStart y ↔ commonDays d < 365 * y := by
  obtain ⟨hfirst, hlast⟩ := commonDays_yearStart y hy
  constructor
  · intro hlt
    exact Int.lt_of_le_of_lt (commonDays_mono (Int.le_sub_one_of_lt hlt)) (hlast hne)
  · intro hlt
    by_cases hd : d < yearStart y
    · exact hd
    · exact absurd (Int.le_trans hfirst (commonDays_mono (Int.not_lt.1 hd))) (by omega)

/-- The year of a day, and how far the day is from its beginning. -/
theorem dayOfYear_bounds {d : Int} (hd : 0 ≤ d) (hd' : d < 146097) :
    ∃ y : Nat, y < 400 ∧ commonDays d / 365 = y ∧ yearStart y ≤ d ∧
      (d < yearStart (y + 1) ∨ y = 399) := by
  have hpos : 0 ≤ commonDays d := commonDays_mono hd
  have hlt : commonDays d ≤ 145999 := commonDays_mono (Int.le_of_lt_add_one hd' : d ≤ 146096)
  obtain ⟨y, hy⟩ := Int.eq_ofNat_of_zero_le (show 0 ≤ commonDays d / 365 by omega)
  have hyear : y < 400 := by omega
  refine ⟨y, hyear, hy, ?_, ?_⟩
  · by_cases hzero : y = 0
    · subst hzero
      exact hd
    · refine Int.not_lt.1 fun h => ?_
      have := (lt_yearStart_iff hyear hzero).1 h
      omega
  · by_cases hlast : y = 399
    · exact .inr hlast
    · refine .inl ((lt_yearStart_iff (y := y + 1) (by omega) (by omega)).2 ?_)
      omega

/-! ## Days of a year -/

def ofDayOfYear (era : Int) (yearOfEra dayOfYear : Nat) : Date :=
  let monthOfYear := (5 * dayOfYear + 2) / 153
  { year := yearOfEra + era * 400 + if monthOfYear < 10 then 0 else 1
    month := if monthOfYear < 10 then monthOfYear + 3 else monthOfYear - 9
    day := dayOfYear - (153 * monthOfYear + 2) / 5 + 1 }

theorem ofDayOfYear_of_lt (era : Int) (y : Nat) {n : Nat} (h : (5 * n + 2) / 153 < 10) :
    ofDayOfYear era y n = ⟨y + era * 400, (5 * n + 2) / 153 + 3,
      n - (153 * ((5 * n + 2) / 153) + 2) / 5 + 1⟩ := by
  simp [ofDayOfYear, h]

theorem ofDayOfYear_of_ge (era : Int) (y : Nat) {n : Nat} (h : 10 ≤ (5 * n + 2) / 153) :
    ofDayOfYear era y n = ⟨y + era * 400 + 1, (5 * n + 2) / 153 - 9,
      n - (153 * ((5 * n + 2) / 153) + 2) / 5 + 1⟩ := by
  simp [ofDayOfYear, Nat.not_lt.2 h]

theorem isLeapYear_of_long {era : Int} {y : Nat}
    (h : y = 399 ∨ yearStart y + 365 < yearStart (y + 1)) :
    isLeapYear (y + era * 400 + 1) = true := by
  have hfour : ((y : Int) + era * 400 + 1) % 4 = ((y : Int) + 1) % 4 := by omega
  have hhundred : ((y : Int) + era * 400 + 1) % 100 = ((y : Int) + 1) % 100 := by omega
  have hperiod : ((y : Int) + era * 400 + 1) % 400 = ((y : Int) + 1) % 400 := by omega
  simp only [yearStart] at h
  simp only [isLeapYear, hfour, hhundred, hperiod, Bool.and_eq_true, Bool.or_eq_true, beq_iff_eq,
    bne_iff_ne]
  omega

/-- A day is a number of days into a year, and only leap years have a day that is 365 days behind
their first. -/
theorem exists_ofDayOfYear (days : Int) :
    ∃ (era : Int) (y n : Nat), y < 400 ∧ n ≤ 365 ∧
      days + 719468 = era * 146097 + yearStart y + n ∧
      (n = 365 → isLeapYear (y + era * 400 + 1) = true) ∧ ofDays days = ofDayOfYear era y n := by
  obtain ⟨y, hy, hyear, hstart, hnext⟩ :=
    dayOfYear_bounds (d := (days + 719468) % 146097) (by omega) (by omega)
  obtain ⟨n, hn⟩ := Int.eq_ofNat_of_zero_le (Int.sub_nonneg_of_le hstart)
  have hn365 : n ≤ 365 := by
    simp only [yearStart] at hn hnext
    omega
  refine ⟨(days + 719468) / 146097, y, n, hy, hn365, by omega, ?_, ?_⟩
  · intro hn'
    have hlong : y = 399 ∨ yearStart y + 365 < yearStart (y + 1) := by omega
    exact isLeapYear_of_long hlong
  · have hn' : (days + 719468) % 146097 - (365 * (y : Int) + (y : Int) / 4 - (y : Int) / 100) = n := hn
    have hyear' : ((days + 719468) % 146097 - (days + 719468) % 146097 / 1460 +
      (days + 719468) % 146097 / 36524 - (days + 719468) % 146097 / 146096) / 365 = y := hyear
    have hmonth : (5 * (n : Int) + 2) / 153 = ((5 * n + 2) / 153 : Nat) := by omega
    have hday : ((n : Int) - (153 * ((5 * n + 2) / 153 : Nat) + 2) / 5 + 1).toNat =
        n - (153 * ((5 * n + 2) / 153) + 2) / 5 + 1 := by omega
    simp only [ofDays, hyear', hn', hmonth, hday]
    clear hyear' hn' hyear hn hstart hnext hmonth hday
    by_cases h : (5 * n + 2) / 153 < 10
    · have hint : (((5 * n + 2) / 153 : Nat) : Int) < 10 := by omega
      rw [ofDayOfYear_of_lt _ y h]
      simp only [hint, if_true]
      rw [if_neg (by omega), Int.add_zero]
      rfl
    · have hint : ¬ (((5 * n + 2) / 153 : Nat) : Int) < 10 := by omega
      rw [ofDayOfYear_of_ge _ y (Nat.not_lt.1 h)]
      simp only [hint, if_false]
      rw [if_pos (by omega), mk.injEq]
      exact ⟨rfl, by omega, rfl⟩

theorem toDays_ofDayOfYear (era : Int) {y n : Nat} (hy : y < 400) (hn : n ≤ 365) :
    (ofDayOfYear era y n).toDays = era * 146097 + yearStart y + n - 719468 := by
  by_cases h : (5 * n + 2) / 153 < 10
  · rw [ofDayOfYear_of_lt era y h]
    have hmonth : ¬ (5 * n + 2) / 153 + 3 ≤ 2 := by omega
    simp only [toDays, hmonth, if_false, yearStart]
    omega
  · rw [ofDayOfYear_of_ge era y (Nat.not_lt.1 h)]
    have hmonth : (5 * n + 2) / 153 - 9 ≤ 2 := by omega
    simp only [toDays, hmonth, if_true, yearStart]
    omega

theorem valid_ofDayOfYear (era : Int) {y n : Nat} (hn : n ≤ 365)
    (hleap : n = 365 → isLeapYear (y + era * 400 + 1) = true) : (ofDayOfYear era y n).Valid := by
  refine ⟨Nat.le_add_left 1 _, ?_⟩
  simp only [ofDayOfYear]
  generalize hm : (5 * n + 2) / 153 = m
  have hmonth : m < 12 := by omega
  by_cases hlast : m = 11
  · subst hlast
    by_cases hday : n = 365
    · simp [daysInMonth, hleap hday, hday]
    · have hshort : 28 ≤ daysInMonth (y + era * 400 + 1) 2 := by
        simp only [daysInMonth]
        split <;> decide
      simp only [Nat.reduceLT, if_false, Nat.reduceSub, Nat.reduceMul, Nat.reduceAdd, Nat.reduceDiv]
      omega
  · -- The other months have as many days in every year.
    interval_cases m <;> first | exact absurd rfl hlast | (simp [daysInMonth]; omega)

theorem Valid.two_digits {d : Date} (h : d.Valid) : d.month < 100 ∧ d.day < 100 := by
  obtain ⟨hfirst, hlast⟩ := h
  rcases Nat.lt_or_ge 12 d.month with hlt | hle
  · have hnone : daysInMonth d.year d.month = 0 := by
      unfold daysInMonth
      split <;> omega
    omega
  · have hlong : daysInMonth d.year d.month ≤ 31 := by
      unfold daysInMonth
      split <;> first | decide | (split <;> decide)
    omega

/-- **A day is the day of its date.** -/
theorem toDays_ofDays (days : Int) : (ofDays days).toDays = days := by
  obtain ⟨era, y, n, hy, hn, hdays, -, hdate⟩ := exists_ofDayOfYear days
  rw [hdate, toDays_ofDayOfYear era hy hn]
  omega

/-- **The date of a day exists.** -/
theorem valid_ofDays (days : Int) : (ofDays days).Valid := by
  obtain ⟨era, y, n, -, hn, -, hleap, hdate⟩ := exists_ofDayOfYear days
  rw [hdate]
  exact valid_ofDayOfYear era hn hleap

end Searchlight.Date
