set_option autoImplicit false

/-! # The civil calendar

Days are counted from 1970-01-01 in the proleptic Gregorian calendar. The conversion works in cycles
of 400 years that start on the first of March, so that a leap day is the last day of its year.
Counting the days of the date found for a day count gives the count back. -/

namespace ScanFleet

/-- A year, a month and a day. -/
structure Civil where
  year : Int
  month : Nat
  day : Nat
  deriving DecidableEq, Repr

namespace Civil

/-- Whether the year has a twenty-ninth of February. -/
def isLeapYear (year : Int) : Bool := year % 4 = 0 && (year % 100 ≠ 0 || year % 400 = 0)

/-- The number of days of a month. -/
def daysInMonth (year : Int) (month : Nat) : Nat :=
  if month = 2 then if isLeapYear year then 29 else 28
  else if month ∈ [4, 6, 9, 11] then 30
  else 31

/-- Whether month and day exist. -/
def IsValid (c : Civil) : Prop :=
  1 ≤ c.month ∧ c.month ≤ 12 ∧ 1 ≤ c.day ∧ c.day ≤ daysInMonth c.year c.month

instance (c : Civil) : Decidable c.IsValid := by unfold IsValid; infer_instance

/-! ## Years that start in March -/

/-- The year, when years start in March. -/
def marchYear (c : Civil) : Int := if c.month ≤ 2 then c.year - 1 else c.year

/-- The months since March. -/
def marchMonth (c : Civil) : Int := if c.month ≤ 2 then c.month + 9 else c.month - 3

/-- The date in a year that starts in March; months are counted from zero. -/
def ofMarch (year month day : Int) : Civil :=
  if month < 10 then ⟨year, (month + 3).toNat, day.toNat⟩
  else ⟨year + 1, (month - 9).toNat, day.toNat⟩

theorem marchYear_ofMarch {year month day : Int} (h0 : 0 ≤ month) (h1 : month ≤ 11) :
    (ofMarch year month day).marchYear = year := by
  simp only [ofMarch, marchYear]
  grind

theorem marchMonth_ofMarch {year month day : Int} (h0 : 0 ≤ month) (h1 : month ≤ 11) :
    (ofMarch year month day).marchMonth = month := by
  simp only [ofMarch, marchMonth]
  grind

theorem day_ofMarch {year month day : Int} (h : 0 ≤ day) :
    ((ofMarch year month day).day : Int) = day := by
  simp only [ofMarch]
  grind

/-! ## Day counts -/

/-- The days of a cycle before a year of the cycle. -/
def daysBeforeYear (year : Int) : Int := 365 * year + year / 4 - year / 100

/-- The days of a year before a month of the year. -/
def daysBeforeMonth (month : Int) : Int := (153 * month + 2) / 5

/-- The year of a cycle in which a day of the cycle lies: centuries, then spans of four years, then
    years. The last century of a cycle and the last year of a span have a day more than the others. -/
def yearOfCycle (day : Int) : Int :=
  let century := min (day / 36524) 3
  let span := (day - 36524 * century) / 1461
  let year := min ((day - 36524 * century - 1461 * span) / 365) 3
  100 * century + 4 * span + year

/-- The month of a year in which a day of the year lies. -/
def monthOfYear (day : Int) : Int := (5 * day + 2) / 153

/-- The days from 1970-01-01 to the given date. -/
def toDays (c : Civil) : Int :=
  146097 * (c.marchYear / 400) + daysBeforeYear (c.marchYear % 400) + daysBeforeMonth c.marchMonth
    + c.day - 719469

/-- The date that lies the given number of days after 1970-01-01. -/
def ofDays (days : Int) : Civil :=
  let cycle := (days + 719468) / 146097
  let day := (days + 719468) % 146097
  let year := yearOfCycle day
  let dayOfYear := day - daysBeforeYear year
  let month := monthOfYear dayOfYear
  ofMarch (400 * cycle + year) month (dayOfYear - daysBeforeMonth month + 1)

theorem yearOfCycle_bounds {day : Int} (h0 : 0 ≤ day) (h1 : day < 146097) :
    0 ≤ yearOfCycle day ∧ yearOfCycle day < 400 ∧ daysBeforeYear (yearOfCycle day) ≤ day
      ∧ day ≤ daysBeforeYear (yearOfCycle day) + 365 := by
  simp only [yearOfCycle, daysBeforeYear]
  generalize hc : min (day / 36524) 3 = century
  generalize hs : (day - 36524 * century) / 1461 = span
  generalize hy : min ((day - 36524 * century - 1461 * span) / 365) 3 = year
  rw [show (100 * century + 4 * span + year) / 4 = 25 * century + span by omega,
    show (100 * century + 4 * span + year) / 100 = century by omega]
  omega

theorem monthOfYear_bounds {d : Int} (h0 : 0 ≤ d) (h1 : d ≤ 365) :
    0 ≤ monthOfYear d ∧ monthOfYear d ≤ 11 ∧ daysBeforeMonth (monthOfYear d) ≤ d := by
  simp only [monthOfYear, daysBeforeMonth]
  omega

/-- Counting the days of a date found by its day count gives the count back. -/
theorem toDays_ofDays (days : Int) : (ofDays days).toDays = days := by
  have hy := yearOfCycle_bounds (Int.emod_nonneg (days + 719468) (by decide : (146097 : Int) ≠ 0))
    (Int.emod_lt_of_pos (days + 719468) (by decide))
  generalize hd : (days + 719468) % 146097 = day at hy
  generalize hyear : yearOfCycle day = year at hy
  have hm := monthOfYear_bounds (d := day - daysBeforeYear year) (by omega) (by omega)
  simp only [ofDays, toDays, hd, hyear, marchYear_ofMarch hm.1 hm.2.1, marchMonth_ofMarch hm.1 hm.2.1]
  rw [day_ofMarch (by omega), show (400 * ((days + 719468) / 146097) + year) / 400
    = (days + 719468) / 146097 by omega, show (400 * ((days + 719468) / 146097) + year) % 400 = year
    by omega]
  omega

end Civil

end ScanFleet
