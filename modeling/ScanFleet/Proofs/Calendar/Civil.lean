import Mathlib.Tactic.IntervalCases
import ScanFleet.Calendar.Civil

set_option autoImplicit false

/-! # Counting the days of the civil calendar

Dates and counts of days correspond to each other: the date of a count exists, and the count of a date
that exists leads back to it. One day more is the next date of the calendar (`Civil.next`), by the
lengths of its months and years alone. Everything is told of years that start in March, whose last month
takes up the leap day. -/

namespace ScanFleet

namespace Civil

/-- The day after, by the lengths of the months. -/
def next (c : Civil) : Civil :=
  if c.day < daysInMonth c.year c.month then { c with day := c.day + 1 }
  else if c.month < 12 then ⟨c.year, c.month + 1, 1⟩
  else ⟨c.year + 1, 1, 1⟩

/-! ## Years that start in March -/

/-- Whether a year that starts in March ends with a leap day. -/
def leapDay (year : Int) : Int := if isLeapYear (year + 1) then 1 else 0

/-- The length of a month of a year that starts in March. -/
def marchLength (year month : Int) : Int :=
  if month = 11 then 28 + leapDay year else daysBeforeMonth (month + 1) - daysBeforeMonth month

/-- The days from the start of the first cycle to that of a year. -/
def daysBefore (year : Int) : Int := 146097 * (year / 400) + daysBeforeYear (year % 400)

theorem isLeapYear_iff (year : Int) :
    isLeapYear year = true ↔ year % 4 = 0 ∧ (year % 100 ≠ 0 ∨ year % 400 = 0) := by
  simp [isLeapYear]

theorem leapDay_eq (year : Int) : leapDay year
    = if (year + 1) % 4 = 0 ∧ ((year + 1) % 100 ≠ 0 ∨ (year + 1) % 400 = 0) then 1 else 0 := by
  rw [leapDay]
  simp only [isLeapYear_iff]

theorem leapDay_bounds (year : Int) : 0 ≤ leapDay year ∧ leapDay year ≤ 1 := by
  rw [leapDay]
  split
  · decide
  · decide

/-- A year has 365 days, and its leap day. -/
theorem daysBefore_succ (year : Int) :
    daysBefore (year + 1) = daysBefore year + 365 + leapDay year := by
  rw [leapDay_eq]
  simp only [daysBefore, daysBeforeYear]
  split
  · omega
  · omega

/-- A year of a cycle ends where the next one begins, and the last year with the cycle. -/
theorem daysBeforeYear_succ (cycle : Int) {year : Int} (h0 : 0 ≤ year) (h1 : year < 400) :
    daysBeforeYear year + 365 + leapDay (400 * cycle + year)
      = if year < 399 then daysBeforeYear (year + 1) else 146097 := by
  have hyear := daysBefore_succ (400 * cycle + year)
  rw [daysBefore, daysBefore, show (400 * cycle + year) / 400 = cycle by omega,
    show (400 * cycle + year) % 400 = year by omega] at hyear
  split
  · rw [show (400 * cycle + year + 1) / 400 = cycle by omega,
      show (400 * cycle + year + 1) % 400 = year + 1 by omega] at hyear
    omega
  · rw [show (400 * cycle + year + 1) / 400 = cycle + 1 by omega,
      show (400 * cycle + year + 1) % 400 = 0 by omega, show daysBeforeYear 0 = 0 from rfl] at hyear
    omega

/-- The lengths of the months, counted from March. -/
theorem daysInMonth_eq {c : Civil} (h1 : 1 ≤ c.month) (h12 : c.month ≤ 12) :
    (daysInMonth c.year c.month : Int) = marchLength c.marchYear c.marchMonth := by
  obtain ⟨year, month, day⟩ := c
  simp only [marchYear, marchMonth, marchLength, leapDay, daysInMonth, daysBeforeMonth] at *
  interval_cases month
  case «2» =>
    simp
    split <;> rfl
  all_goals simp

theorem toDays_eq (c : Civil) :
    c.toDays = daysBefore c.marchYear + daysBeforeMonth c.marchMonth + c.day - 719469 := rfl

/-- Every date is the one of its year, month and day counted from March. -/
theorem ofMarch_march {c : Civil} (h1 : 1 ≤ c.month) (h12 : c.month ≤ 12) :
    ofMarch c.marchYear c.marchMonth c.day = c := by
  obtain ⟨year, month, day⟩ := c
  simp only [ofMarch, marchYear, marchMonth] at *
  by_cases hmonth : month ≤ 2
  · simp only [if_pos hmonth]
    rw [if_neg (by omega)]
    simp
  · simp only [if_neg hmonth]
    rw [if_pos (by omega)]
    simp

/-- A date that is counted from March exists when its month and its day do. -/
theorem isValid_ofMarch {year month day : Int} (h0 : 0 ≤ month) (h11 : month ≤ 11) (h1 : 1 ≤ day)
    (hday : day ≤ marchLength year month) : (ofMarch year month day).IsValid := by
  have hmonth : 1 ≤ (ofMarch year month day).month ∧ (ofMarch year month day).month ≤ 12 := by
    simp only [ofMarch]
    split
    · constructor
      · show 1 ≤ (month + 3).toNat
        omega
      · show (month + 3).toNat ≤ 12
        omega
    · constructor
      · show 1 ≤ (month - 9).toNat
        omega
      · show (month - 9).toNat ≤ 12
        omega
  have hlength := daysInMonth_eq hmonth.1 hmonth.2
  rw [marchYear_ofMarch h0 h11, marchMonth_ofMarch h0 h11] at hlength
  have hcount : ((ofMarch year month day).day : Int) = day := day_ofMarch (by omega)
  exact ⟨hmonth.1, hmonth.2, by omega, by omega⟩

/-! ## The date of a count -/

theorem daysBeforeYear_mono {a b : Int} (h : a ≤ b) : daysBeforeYear a ≤ daysBeforeYear b := by
  simp only [daysBeforeYear]
  omega

/-- The year after the one in which a day of a cycle lies begins after the day. -/
theorem yearOfCycle_next {day : Int} (h0 : 0 ≤ day) (h1 : day < 146097)
    (hyear : yearOfCycle day < 399) : day < daysBeforeYear (yearOfCycle day + 1) := by
  simp only [yearOfCycle, daysBeforeYear] at *
  generalize hc : min (day / 36524) 3 = century at *
  generalize hs : (day - 36524 * century) / 1461 = span at *
  generalize hy : min ((day - 36524 * century - 1461 * span) / 365) 3 = year at *
  -- only the last year of a span is followed by a multiple of four
  by_cases hlast : year = 3
  · subst hlast
    rw [show (100 * century + 4 * span + 3 + 1) / 4 = 25 * century + span + 1 by omega]
    omega
  · rw [show (100 * century + 4 * span + year + 1) / 4 = 25 * century + span by omega,
      show (100 * century + 4 * span + year + 1) / 100 = century by omega]
    omega

/-- A day of a cycle lies in one year only. -/
theorem yearOfCycle_eq {day year : Int} (h0 : 0 ≤ day) (h1 : day < 146097) (hyear0 : 0 ≤ year)
    (hyear1 : year < 400) (hfirst : daysBeforeYear year ≤ day)
    (hnext : year < 399 → day < daysBeforeYear (year + 1)) : yearOfCycle day = year := by
  obtain ⟨hleast, hmost, hbegins, -⟩ := yearOfCycle_bounds h0 h1
  rcases Int.lt_trichotomy (yearOfCycle day) year with hlt | heq | hgt
  · have hends := yearOfCycle_next h0 h1 (by omega)
    have hmono := daysBeforeYear_mono (show yearOfCycle day + 1 ≤ year by omega)
    omega
  · exact heq
  · have hends := hnext (by omega)
    have hmono := daysBeforeYear_mono (show year + 1 ≤ yearOfCycle day by omega)
    omega

/-- A day of a year of a cycle is a day of the cycle that lies in that year. -/
theorem yearOfCycle_add (cycle : Int) {year day : Int} (hyear0 : 0 ≤ year) (hyear1 : year < 400)
    (h0 : 0 ≤ day) (h1 : day ≤ 364 + leapDay (400 * cycle + year)) :
    0 ≤ daysBeforeYear year + day ∧ daysBeforeYear year + day < 146097
      ∧ yearOfCycle (daysBeforeYear year + day) = year := by
  have hnext := daysBeforeYear_succ cycle hyear0 hyear1
  have hbegins := daysBeforeYear_mono hyear0
  rw [show daysBeforeYear 0 = 0 from rfl] at hbegins
  have hends : daysBeforeYear year + day < 146097 := by
    split at hnext
    · have hmono := daysBeforeYear_mono (show year + 1 ≤ 399 by omega)
      have hlast : daysBeforeYear 399 < 146097 := by decide
      omega
    · omega
  refine ⟨by omega, hends, yearOfCycle_eq (by omega) hends hyear0 hyear1 (by omega) fun hyear => ?_⟩
  rw [if_pos hyear] at hnext
  omega

/-- The month of a year in which a day lies ends after the day. -/
theorem day_le_marchLength {year day : Int} (h : day ≤ 364 + leapDay year) :
    day - daysBeforeMonth (monthOfYear day) + 1 ≤ marchLength year (monthOfYear day) := by
  rw [marchLength]
  by_cases hlast : monthOfYear day = 11
  · rw [if_pos hlast, hlast, daysBeforeMonth]
    omega
  · rw [if_neg hlast]
    simp only [monthOfYear, daysBeforeMonth]
    omega

/-- A day of a year lies in one month only. -/
theorem monthOfYear_eq {year month day : Int} (h0 : 0 ≤ month) (h11 : month ≤ 11) (h1 : 1 ≤ day)
    (hday : day ≤ marchLength year month) :
    monthOfYear (daysBeforeMonth month + day - 1) = month
      ∧ daysBeforeMonth month + day - 1 ≤ 364 + leapDay year := by
  have hleap := leapDay_bounds year
  simp only [marchLength, monthOfYear, daysBeforeMonth] at *
  split at hday
  · omega
  · omega

/-- The day of a year in which a day of a cycle lies. -/
theorem dayOfYear_le (cycle : Int) {day : Int} (h0 : 0 ≤ day) (h1 : day < 146097) :
    day - daysBeforeYear (yearOfCycle day) ≤ 364 + leapDay (400 * cycle + yearOfCycle day) := by
  obtain ⟨hleast, hmost, -, -⟩ := yearOfCycle_bounds h0 h1
  have hends := yearOfCycle_next h0 h1
  have hyear := daysBeforeYear_succ cycle hleast hmost
  split at hyear
  · have hnext := hends (by assumption)
    omega
  · omega

/-- The date of a count exists. -/
theorem isValid_ofDays (days : Int) : (ofDays days).IsValid := by
  have h0 := Int.emod_nonneg (days + 719468) (by decide : (146097 : Int) ≠ 0)
  have h1 := Int.emod_lt_of_pos (days + 719468) (show (0 : Int) < 146097 by decide)
  obtain ⟨-, -, hbegins, hends⟩ := yearOfCycle_bounds h0 h1
  have hmonth := monthOfYear_bounds (Int.sub_nonneg.2 hbegins) (Int.sub_left_le_of_le_add hends)
  refine isValid_ofMarch hmonth.1 hmonth.2.1 (by omega) ?_
  exact day_le_marchLength (dayOfYear_le _ h0 h1)

theorem marchMonth_bounds {c : Civil} (h1 : 1 ≤ c.month) (h12 : c.month ≤ 12) :
    0 ≤ c.marchMonth ∧ c.marchMonth ≤ 11 := by
  rw [marchMonth]
  split
  · omega
  · omega

/-- Counting leads back to a date that exists. -/
theorem IsValid.ofDays_toDays {c : Civil} (h : c.IsValid) : ofDays c.toDays = c := by
  obtain ⟨h1, h12, hfirst, hlast⟩ := h
  obtain ⟨hm0, hm11⟩ := marchMonth_bounds h1 h12
  have hlength := daysInMonth_eq h1 h12
  have hlength : (c.day : Int) ≤ marchLength c.marchYear c.marchMonth := by omega
  obtain ⟨hmonth, hdays⟩ := monthOfYear_eq hm0 hm11 (by omega) hlength
  generalize hday : daysBeforeMonth c.marchMonth + c.day - 1 = day at hmonth hdays
  have hday0 : 0 ≤ day := by
    rw [daysBeforeMonth] at hday
    omega
  rw [← Int.mul_ediv_add_emod c.marchYear 400] at hdays
  obtain ⟨hbegins, hends, hyear⟩ := yearOfCycle_add (c.marchYear / 400)
    (Int.emod_nonneg c.marchYear (by decide)) (Int.emod_lt_of_pos c.marchYear (by decide)) hday0 hdays
  generalize hcycle : daysBeforeYear (c.marchYear % 400) + day = rest at hbegins hends hyear
  have hcount : c.toDays + 719468 = 146097 * (c.marchYear / 400) + rest := by
    rw [toDays_eq, daysBefore]
    omega
  simp only [ofDays]
  rw [show (c.toDays + 719468) / 146097 = c.marchYear / 400 by omega,
    show (c.toDays + 719468) % 146097 = rest by omega, hyear, ← hcycle,
    show daysBeforeYear (c.marchYear % 400) + day - daysBeforeYear (c.marchYear % 400) = day by omega,
    hmonth, Int.mul_ediv_add_emod, show day - daysBeforeMonth c.marchMonth + 1 = c.day by omega]
  exact ofMarch_march h1 h12

/-! ## The day after -/

/-- The day after a date that exists does. -/
theorem IsValid.next {c : Civil} (h : c.IsValid) : c.next.IsValid := by
  have hfirst (year : Int) (month : Nat) : 1 ≤ daysInMonth year month := by
    unfold daysInMonth
    split
    · split
      · decide
      · decide
    · split
      · decide
      · decide
  obtain ⟨h1, h12, hday, -⟩ := h
  unfold Civil.next
  split
  · exact ⟨h1, h12, Nat.le_succ_of_le hday, by assumption⟩
  · split
    · exact ⟨Nat.le_succ_of_le h1, by assumption, Nat.le_refl 1, hfirst _ _⟩
    · exact ⟨Nat.le_refl 1, show 1 ≤ 12 by decide, Nat.le_refl 1, hfirst _ _⟩

/-- The first day of the month after another one counts as many days more as the month has. -/
theorem toDays_nextMonth {c : Civil} (h1 : 1 ≤ c.month) (h12 : c.month < 12) :
    (⟨c.year, c.month + 1, 1⟩ : Civil).toDays = c.toDays - c.day + daysInMonth c.year c.month + 1 := by
  have hyear := daysBefore_succ c.marchYear
  rw [toDays_eq, toDays_eq, daysInMonth_eq h1 (Nat.le_of_lt h12), marchLength]
  obtain ⟨year, month, day⟩ := c
  simp only [marchYear, marchMonth, daysBeforeMonth] at *
  -- February is the last month of a year that starts in March
  by_cases hfeb : month = 2
  · subst hfeb
    simp at *
    omega
  · grind

/-- New year's day counts as many days more as December has. -/
theorem toDays_newYear {c : Civil} (h12 : c.month = 12) :
    (⟨c.year + 1, 1, 1⟩ : Civil).toDays = c.toDays - c.day + daysInMonth c.year c.month + 1 := by
  rw [toDays_eq, toDays_eq, daysInMonth_eq (by omega) (by omega), marchLength]
  obtain ⟨year, month, day⟩ := c
  subst h12
  simp [marchYear, marchMonth, daysBeforeMonth]
  omega

/-- The day after a date counts one more. -/
theorem IsValid.toDays_next {c : Civil} (h : c.IsValid) : c.next.toDays = c.toDays + 1 := by
  obtain ⟨h1, h12, hfirst, hlast⟩ := h
  unfold Civil.next
  split
  · rw [toDays_eq, toDays_eq]
    simp only [marchYear, marchMonth]
    omega
  · -- the last day of a month is as many days after its first one as the month has
    have hday : c.day = daysInMonth c.year c.month := by omega
    split
    · rw [toDays_nextMonth h1 (by assumption)]
      omega
    · rw [toDays_newYear (by omega)]
      omega

/-- One day more leads to the next date of the calendar. -/
theorem ofDays_succ (days : Int) : ofDays (days + 1) = (ofDays days).next := by
  have hvalid := isValid_ofDays days
  rw [← hvalid.next.ofDays_toDays, hvalid.toDays_next, toDays_ofDays]

/-- With the date of the count zero this determines the date of every count. -/
example : ofDays 0 = ⟨1970, 1, 1⟩ := by decide

end Civil

end ScanFleet
