import CaseAccess.Calendar.Date
import Mathlib.Logic.Function.Iterate

/-!
# Days and their numbers

The number of a day determines the day: `ofDayNumber?` finds the year by dividing by the
mean length of a year and then corrects its guess, and takes the months of that year off
one by one. Both are right because the days before a year, and before a month of it, add
up: each step takes the length of what it passes.

The numbers are ordered as the days are, first by month and then by day. None of this
depends on where the calendar ends, so it is shown for the days of all years; a date is
one of them.
-/

namespace CaseAccess

namespace Date

/-! ## Years -/

theorem isLeapYear_iff {year : Int} :
    isLeapYear year = true ↔ year % 4 = 0 ∧ (year % 100 ≠ 0 ∨ year % 400 = 0) := by
  simp [isLeapYear]

theorem daysBeforeYear_succ (year : Int) :
    daysBeforeYear (year + 1) = daysBeforeYear year + if isLeapYear year then 366 else 365 := by
  simp only [daysBeforeYear]
  split
  · next h =>
      rw [isLeapYear_iff] at h
      omega
  · next h =>
      rw [isLeapYear_iff] at h
      omega

/-- The guess is off by one at most, and then it is corrected. -/
theorem yearOfDay_eq {year n : Int} (hafter : daysBeforeYear year < n)
    (hbefore : n ≤ daysBeforeYear (year + 1)) : yearOfDay n = year := by
  have hguess : year - 1 ≤ (n - 1) * 400 / 146097 + 1 ∧ (n - 1) * 400 / 146097 + 1 ≤ year + 1 := by
    simp only [daysBeforeYear] at hafter hbefore
    omega
  have hlast := daysBeforeYear_succ (year - 1)
  rw [Int.sub_add_cancel] at hlast
  rw [yearOfDay]
  generalize (n - 1) * 400 / 146097 + 1 = guess at hguess ⊢
  obtain rfl | rfl | rfl : guess = year - 1 ∨ guess = year ∨ guess = year + 1 := by omega
  · have hlate : ¬ n ≤ daysBeforeYear (year - 1) := by
      split at hlast
      · omega
      · omega
    simp only [hlate, if_false, Int.sub_add_cancel, hafter, if_true]
  · simp only [Int.not_le.2 hafter, if_false, Int.not_lt.2 hbefore]
  · simp only [hbefore, if_true, Int.add_sub_cancel]

/-! ## Months -/

theorem daysBeforeMonth_succ {year : Int} {month : Nat} (h : 1 ≤ month) :
    daysBeforeMonth year (month + 1) = daysBeforeMonth year month + daysInMonth year month := by
  obtain ⟨k, rfl⟩ := Nat.exists_eq_add_of_le' h
  rw [daysBeforeMonth, daysBeforeMonth, Nat.add_sub_cancel, Nat.add_sub_cancel, List.range_succ,
    List.foldl_append]
  rfl

theorem daysBeforeMonth_mono {year : Int} {month later : Nat} (h : 1 ≤ month)
    (hle : month ≤ later) : daysBeforeMonth year month ≤ daysBeforeMonth year later := by
  induction hle with
  | refl => exact Nat.le_refl _
  | step hle ih =>
      rw [daysBeforeMonth_succ (Nat.le_trans h hle)]
      exact Nat.le_add_right_of_le ih

theorem daysInMonth_le (year : Int) (month : Nat) : daysInMonth year month ≤ 31 := by
  rw [daysInMonth]
  split
  · split
    · decide
    · decide
  · split
    · decide
    · decide

/-- Twelve months make a year. -/
theorem daysBeforeMonth_thirteen (year : Int) :
    daysBeforeMonth year 13 = if isLeapYear year then 366 else 365 := by
  simp only [daysBeforeMonth, daysInMonth]
  cases isLeapYear year with
  | true => decide
  | false => decide

/-- The months that are taken off add up to those before the month that is found. -/
theorem monthOfDay_eq {year : Int} {target day : Nat} (hday : day ≤ daysInMonth year target)
    (hfirst : 1 ≤ day) {fuel month : Nat} (hone : 1 ≤ month) (hle : month ≤ target)
    (hfuel : target ≤ month + fuel) :
    monthOfDay year fuel month
      (daysBeforeMonth year target - daysBeforeMonth year month + day) = (target, day) := by
  induction fuel generalizing month with
  | zero =>
      obtain rfl : month = target := by omega
      rw [monthOfDay, Nat.sub_self, Nat.zero_add]
  | succ fuel ih =>
      rw [monthOfDay]
      rcases Nat.eq_or_lt_of_le hle with rfl | hlt
      · rw [Nat.sub_self, Nat.zero_add, if_pos hday]
      · have hpassed : daysBeforeMonth year (month + 1) ≤ daysBeforeMonth year target :=
          daysBeforeMonth_mono (by omega) hlt
        have hnext := ih (by omega : 1 ≤ month + 1) hlt (by omega)
        rw [daysBeforeMonth_succ hone] at hnext hpassed
        have hrest : daysBeforeMonth year target - daysBeforeMonth year month + day -
            daysInMonth year month = daysBeforeMonth year target -
              (daysBeforeMonth year month + daysInMonth year month) + day := by omega
        rw [if_neg (by omega), hrest]
        exact hnext

end Date

/-! ## Months of all years -/

/-- A month of a calendar without a first or a last year. -/
@[ext]
structure CivilMonth where
  year : Int
  month : Nat
  isMonth : 1 ≤ month ∧ month ≤ 12

namespace CivilMonth

/-- The month after. -/
def next (m : CivilMonth) : CivilMonth :=
  if h : m.month = 12 then ⟨m.year + 1, 1, by decide⟩
  else ⟨m.year, m.month + 1, by have := m.isMonth; omega⟩

/-- The number of the month, from January of the year 0. -/
def index (m : CivilMonth) : Int := m.year * 12 + (m.month - 1 : Nat)

/-- The number of days before the month, counted from the year 1. -/
def daysBefore (m : CivilMonth) : Int :=
  Date.daysBeforeYear m.year + Date.daysBeforeMonth m.year m.month

variable {m later : CivilMonth}

theorem index_next (m : CivilMonth) : m.next.index = m.index + 1 := by
  have hmonth := m.isMonth
  rw [next, index, index]
  split
  · next h =>
      simp only [h]
      omega
  · simp only
    omega

theorem index_iterate (m : CivilMonth) (n : Nat) : (next^[n] m).index = m.index + n := by
  induction n generalizing m with
  | zero => exact (Int.add_zero m.index).symm
  | succ n ih =>
      rw [Function.iterate_succ_apply, ih, index_next]
      omega

theorem eq_of_index_eq (h : m.index = later.index) : m = later := by
  have hm := m.isMonth
  have hlater := later.isMonth
  rw [index, index] at h
  exact CivilMonth.ext (by omega) (by omega)

/-- A later month is reached by going on month by month. -/
theorem eq_iterate_of_index (h : m.index ≤ later.index) :
    later = next^[(later.index - m.index).toNat] m :=
  eq_of_index_eq (by rw [index_iterate]; omega)

theorem daysBefore_next (m : CivilMonth) :
    m.next.daysBefore = m.daysBefore + daysInMonth m.year m.month := by
  have hmonth := m.isMonth
  have hpassed : Date.daysBeforeMonth m.year (m.month + 1) =
      Date.daysBeforeMonth m.year m.month + daysInMonth m.year m.month :=
    Date.daysBeforeMonth_succ hmonth.1
  rw [next, daysBefore, daysBefore]
  split
  · next h =>
      have hyear := Date.daysBeforeYear_succ m.year
      have hwhole := Date.daysBeforeMonth_thirteen m.year
      have hfirst : Date.daysBeforeMonth (m.year + 1) 1 = 0 := rfl
      rw [h] at hpassed ⊢
      rw [hpassed] at hwhole
      simp only [hyear, hfirst]
      split at hwhole
      · next hleap =>
          rw [if_pos hleap]
          omega
      · next hleap =>
          rw [if_neg hleap]
          omega
  · simp only [hpassed]
    omega

theorem daysBefore_le_iterate (m : CivilMonth) (n : Nat) :
    m.daysBefore ≤ (next^[n] m).daysBefore := by
  induction n generalizing m with
  | zero => exact Int.le_refl _
  | succ n ih =>
      have hnext := m.daysBefore_next
      have hrest := ih m.next
      rw [Function.iterate_succ_apply]
      omega

/-- All days of a month come before a later month. -/
theorem daysBefore_of_index_lt (h : m.index < later.index) :
    m.daysBefore + daysInMonth m.year m.month ≤ later.daysBefore := by
  have hnext : m.next.index ≤ later.index := by
    rw [index_next]
    omega
  rw [← daysBefore_next, eq_iterate_of_index hnext]
  exact daysBefore_le_iterate _ _

end CivilMonth

/-! ## Days of all years -/

/-- A day of a calendar without a first or a last year. -/
@[ext]
structure CivilDay extends CivilMonth where
  day : Nat
  isDay : 1 ≤ day ∧ day ≤ daysInMonth year month

/-- The day of all years that a date is. -/
def Date.civil (d : Date) : CivilDay :=
  ⟨⟨d.year, d.month, d.isDate.2.2.1, d.isDate.2.2.2.1⟩, d.day, d.isDate.2.2.2.2⟩

namespace CivilDay

variable {d e : CivilDay}

/-- The number of the day, from 1 January of the year 1. -/
def number (d : CivilDay) : Int := d.daysBefore + d.day

/-- The date of that day, if the calendar goes as far. -/
def toDate? (d : CivilDay) : Option Date := Date.of? d.year d.month d.day

theorem toDate?_civil (d : Date) : d.civil.toDate? = some d :=
  dif_pos d.isDate

/-- The numbers are in the order of the months, and within a month in that of its days. -/
theorem number_le_iff : d.number ≤ e.number ↔
    d.index < e.index ∨ d.index = e.index ∧ d.day ≤ e.day := by
  have hd := d.isDay
  have he := e.isDay
  rw [number, number]
  rcases Int.lt_trichotomy d.index e.index with hlt | heq | hgt
  · have hpassed := CivilMonth.daysBefore_of_index_lt hlt
    exact iff_of_true (by omega) (.inl hlt)
  · rw [CivilMonth.eq_of_index_eq heq]
    omega
  · have hpassed := CivilMonth.daysBefore_of_index_lt hgt
    exact iff_of_false (by omega) (by omega)

/-- The day is one of its year. -/
theorem number_bounds (d : CivilDay) :
    Date.daysBeforeYear d.year < d.number ∧ d.number ≤ Date.daysBeforeYear (d.year + 1) := by
  obtain ⟨hmonth, hmonth'⟩ := d.isMonth
  obtain ⟨hday, hday'⟩ := d.isDay
  have hyear := Date.daysBeforeYear_succ d.year
  have hlast : Date.daysBeforeMonth d.year (d.month + 1) ≤ Date.daysBeforeMonth d.year 13 :=
    Date.daysBeforeMonth_mono (by omega) (by omega)
  rw [Date.daysBeforeMonth_thirteen, Date.daysBeforeMonth_succ hmonth] at hlast
  rw [number, CivilMonth.daysBefore, hyear]
  refine ⟨by omega, ?_⟩
  split at hlast
  · next hleap =>
      rw [if_pos hleap]
      omega
  · next hleap =>
      rw [if_neg hleap]
      omega

/-- A day is found again by its number. -/
theorem ofDayNumber?_number (d : CivilDay) : Date.ofDayNumber? d.number = d.toDate? := by
  obtain ⟨hafter, hbefore⟩ := d.number_bounds
  obtain ⟨hmonth, hmonth'⟩ := d.isMonth
  obtain ⟨hday, hday'⟩ := d.isDay
  have hrest : (d.number - Date.daysBeforeYear d.year).toNat =
      Date.daysBeforeMonth d.year d.month - Date.daysBeforeMonth d.year 1 + d.day := by
    have hnone : Date.daysBeforeMonth d.year 1 = 0 := rfl
    rw [number, CivilMonth.daysBefore, hnone]
    omega
  rw [Date.ofDayNumber?]
  simp only
  rw [Date.yearOfDay_eq hafter hbefore, hrest,
    Date.monthOfDay_eq hday' hday (Nat.le_refl 1) hmonth (by omega)]
  rfl

end CivilDay

/-! ## Dates -/

namespace Date

/-- A date is found again by the number of its day. -/
theorem ofDayNumber?_dayNumber (d : Date) : ofDayNumber? d.dayNumber = some d :=
  d.civil.ofDayNumber?_number.trans (CivilDay.toDate?_civil d)

/-- An earlier day has an earlier year, or month of it, or day of that. -/
theorem before_of_dayNumber_lt {d e : Date} (h : d.dayNumber < e.dayNumber) :
    d.year < e.year ∨ d.year = e.year ∧
      (d.month < e.month ∨ d.month = e.month ∧ d.day < e.day) := by
  have hd := d.civil.isMonth
  have he := e.civil.isMonth
  have hbefore : ¬ e.civil.number ≤ d.civil.number := Int.not_le.2 h
  rw [CivilDay.number_le_iff] at hbefore
  simp only [CivilMonth.index, civil] at hd he hbefore
  omega

theorem eq_of_dayNumber_eq {d e : Date} (h : d.dayNumber = e.dayNumber) : d = e := by
  have hd := d.ofDayNumber?_dayNumber
  rw [h, e.ofDayNumber?_dayNumber] at hd
  exact (Option.some.inj hd).symm

end Date

end CaseAccess
