import Mathlib.Tactic.IntervalCases
import SearchClient.Time.Calendar

/-!
# Days and dates

An era of 400 years consists of four centuries, a century of 25 cycles of four
years.  With years that start in March the leap day is the last day of the
cycle, and the last cycle of a century has one only at the end of the era.  A day
of an era is taken apart along these lines, which shows that the date of every
day is one the calendar has, and is the date of that day only.
-/

namespace SearchClient.Time

structure EraDay where
  century : Nat
  cycle : Nat
  yearOfCycle : Nat
  dayOfYear : Nat
  century_lt : century < 4
  cycle_lt : cycle < 25
  yearOfCycle_lt : yearOfCycle < 4
  dayOfYear_lt : dayOfYear < 365 ∨
    dayOfYear = 365 ∧ yearOfCycle = 3 ∧ (cycle < 24 ∨ century = 3)

namespace EraDay

variable (d : EraDay)

def number : Nat := 36524 * d.century + 1461 * d.cycle + 365 * d.yearOfCycle + d.dayOfYear

def year : Nat := 100 * d.century + 4 * d.cycle + d.yearOfCycle

theorem exists_number_eq {n : Nat} (h : n < 146097) : ∃ d : EraDay, d.number = n := by
  -- the leap day at the end of the era belongs to the fourth century, not to a fifth
  let century := min (n / 36524) 3
  let ofCentury := n - 36524 * century
  let cycle := ofCentury / 1461
  let ofCycle := ofCentury - 1461 * cycle
  let yearOfCycle := min (ofCycle / 365) 3
  refine ⟨⟨century, cycle, yearOfCycle, ofCycle - 365 * yearOfCycle, ?_, ?_, ?_, ?_⟩, ?_⟩
  all_goals simp only [number, century, ofCentury, cycle, ofCycle, yearOfCycle]; omega

theorem number_lt : d.number < 146097 := by
  obtain ⟨c, q, s, k, hc, hq, hs, hk⟩ := d
  simp only [number]
  omega

theorem year_eq :
    (d.number - d.number / 1460 + d.number / 36524 - d.number / 146096) / 365 = d.year := by
  obtain ⟨c, q, s, k, hc, hq, hs, hk⟩ := d
  have hrest : 1461 * q + 365 * s + k < 36524 ∨ c = 3 ∧ 1461 * q + 365 * s + k = 36524 := by omega
  -- the last day of an era counts as a day of a fifth century, and both quotients see it
  have hcentury : (36524 * c + 1461 * q + 365 * s + k) / 36524 =
      c + (36524 * c + 1461 * q + 365 * s + k) / 146096 := by
    rcases hrest with hrest | ⟨rfl, hrest⟩ <;> omega
  -- a cycle of 1461 days is ahead of the divisor by a day, which the remainder collects
  have hcycle : (36524 * c + 1461 * q + 365 * s + k) / 1460 =
      25 * c + q + (24 * c + q + 365 * s + k) / 1460 := by omega
  have hleap : (24 * c + q + 365 * s + k) / 1460 = 0 ∧ k < 365 ∨
      (24 * c + q + 365 * s + k) / 1460 = 1 ∧ 0 < k := by omega
  simp only [number, year]
  omega

theorem number_eq : d.number + d.year / 100 = 365 * d.year + d.year / 4 + d.dayOfYear := by
  obtain ⟨c, q, s, k, hc, hq, hs, hk⟩ := d
  simp only [number, year]
  omega

theorem dayOfYear_eq :
    d.number - (365 * d.year + d.year / 4 - d.year / 100) = d.dayOfYear := by
  have := d.number_eq
  omega

theorem year_lt : d.year < 400 := by
  obtain ⟨c, q, s, k, hc, hq, hs, hk⟩ := d
  simp only [year]
  omega

theorem dayOfYear_lt_leap : d.dayOfYear < 366 := by
  have := d.dayOfYear_lt
  omega

end EraDay

namespace CivilDate

theorem exists_eraDay (days : Int) :
    ∃ (era : Int) (d : EraDay), days + epochOffset = era * daysPerEra + d.number := by
  unfold daysPerEra
  obtain ⟨d, hd⟩ := EraDay.exists_number_eq
    (n := ((days + epochOffset) % 146097).toNat) (by omega)
  exact ⟨(days + epochOffset) / 146097, d, by omega⟩

def monthOf (dayOfYear : Nat) : Nat :=
  let marchMonth := (5 * dayOfYear + 2) / 153
  if marchMonth < 10 then marchMonth + 3 else marchMonth - 9

def dayOf (dayOfYear : Nat) : Nat :=
  dayOfYear - (153 * ((5 * dayOfYear + 2) / 153) + 2) / 5 + 1

theorem ofDays_eq {days era : Int} {d : EraDay}
    (h : days + epochOffset = era * daysPerEra + d.number) :
    ofDays days = ⟨era * 400 + d.year + (if monthOf d.dayOfYear ≤ 2 then 1 else 0),
      monthOf d.dayOfYear, dayOf d.dayOfYear⟩ := by
  have hnumber := d.number_lt
  have hera : (days + epochOffset) / daysPerEra = era := by
    unfold daysPerEra at h ⊢
    omega
  have hday : ((days + epochOffset) % daysPerEra).toNat = d.number := by
    unfold daysPerEra at h ⊢
    omega
  simp only [ofDays, hera, hday, d.year_eq, d.dayOfYear_eq]
  rfl

section Months

variable {k : Nat}

theorem marchMonth_monthOf (hk : k < 366) :
    (((monthOf k : Nat) : Int) + 9) % 12 = ((5 * k + 2) / 153 : Nat) := by
  simp only [monthOf]
  split <;> omega

theorem dayOfYear_dayOf (k : Nat) :
    (153 * ((5 * k + 2) / 153 : Nat) + 2) / 5 + (dayOf k : Int) - 1 = k := by
  simp only [dayOf]
  omega

theorem monthOf_mem (hk : k < 366) : 1 ≤ monthOf k ∧ monthOf k ≤ 12 := by
  simp only [monthOf]
  split <;> omega

end Months

theorem toDays_ofDays (days : Int) : (ofDays days).toDays = days := by
  obtain ⟨era, d, h⟩ := exists_eraDay days
  have hnumber := d.number_eq
  have hyear := d.year_lt
  rw [ofDays_eq h]
  have hstart : (if monthOf d.dayOfYear ≤ 2 then
      era * 400 + d.year + (if monthOf d.dayOfYear ≤ 2 then 1 else 0) - 1
      else era * 400 + d.year + (if monthOf d.dayOfYear ≤ 2 then 1 else 0)) =
      era * 400 + d.year := by
    split <;> omega
  have hera : (era * 400 + d.year) / 400 = era := by omega
  have hofEra : (era * 400 + d.year) % 400 = d.year := by omega
  simp only [toDays, hstart, marchMonth_monthOf d.dayOfYear_lt_leap, hera, hofEra,
    dayOfYear_dayOf]
  omega

theorem dayOf_le_of_lt {k : Nat} (hk : k < 365) (year : Int) :
    dayOf k ≤ daysInMonth year (monthOf k) := by
  have hmonth : (5 * k + 2) / 153 < 12 := by omega
  have hfebruary : 28 ≤ if isLeap year then 29 else 28 := by split <;> omega
  simp only [dayOf, monthOf]
  generalize hm : (5 * k + 2) / 153 = m at hmonth
  interval_cases m
  all_goals simp only [daysInMonth, Nat.reduceLT, Nat.reduceAdd, Nat.reduceSub, Nat.reduceEqDiff,
    if_true, if_false, or_true, true_or, or_self]
  all_goals omega

/-- The leap day ends the year that starts in March, so that the leap year is the next one. -/
theorem isLeap_of_leapDay (era : Int) {d : EraDay} (h : d.dayOfYear = 365) :
    isLeap (era * 400 + d.year + 1) = true := by
  obtain ⟨c, q, s, k, hc, hq, hs, hk⟩ := d
  simp only [EraDay.year, isLeap, Bool.and_eq_true, Bool.or_eq_true, beq_iff_eq, bne_iff_ne] at h ⊢
  omega

theorem dayOf_le (era : Int) (d : EraDay) :
    dayOf d.dayOfYear ≤
      daysInMonth (era * 400 + d.year + (if monthOf d.dayOfYear ≤ 2 then 1 else 0))
        (monthOf d.dayOfYear) := by
  obtain hk | ⟨hk, -⟩ := d.dayOfYear_lt
  · exact dayOf_le_of_lt hk _
  · have hleap := isLeap_of_leapDay era hk
    simp only [hk]
    change 29 ≤ if isLeap (era * 400 + d.year + 1) then 29 else 28
    rw [if_pos hleap]

theorem ofDays_mem (days : Int) :
    1 ≤ (ofDays days).month ∧ (ofDays days).month ≤ 12 ∧ 1 ≤ (ofDays days).day ∧
      (ofDays days).day ≤ daysInMonth (ofDays days).year (ofDays days).month := by
  obtain ⟨era, d, h⟩ := exists_eraDay days
  obtain ⟨hleast, hgreatest⟩ := monthOf_mem d.dayOfYear_lt_leap
  rw [ofDays_eq h]
  exact ⟨hleast, hgreatest, Nat.succ_pos _, dayOf_le era d⟩

end CivilDate

end SearchClient.Time
