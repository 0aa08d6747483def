import ScanFleet.Calendar.Instant
import ScanFleet.Proofs.Calendar.Civil

set_option autoImplicit false

/-! # Local date and local hour

The local hour is found by the seconds of a day, and the local date by going the seconds of the zone
forth or back. They agree: a shifted instant lies in the local hour of the local date. This takes no
regard to the sign of the instant or of the offset, since days and seconds of the day are both counted
by the floor. Only an instant in a leap second can part them, because the way back leaves the leap
second by a second more, which may be the first one of the next day (`Instant.Slips`). -/

namespace ScanFleet

/-- A count of days is a date of the calendar between its first and its last date. -/
theorem Date.ofDay?_eq_some {day : Int} (hfirst : Civil.toDays ⟨-262143, 1, 1⟩ ≤ day)
    (hlast : day ≤ Civil.toDays ⟨262142, 12, 31⟩) :
    ∃ date, Date.ofDay? day = some date ∧ date.day = day := by
  rw [show Civil.toDays ⟨-262143, 1, 1⟩ = -96465292 by decide] at hfirst
  rw [show Civil.toDays ⟨262142, 12, 31⟩ = 95026236 by decide] at hlast
  exact ⟨⟨day, hfirst, hlast⟩, dif_pos ⟨hfirst, hlast⟩, rfl⟩

/-- The days of a date, counted by its year, month and day. -/
theorem Date.toDays_civil (date : Date) : date.civil.toDays = date.day := Civil.toDays_ofDays date.day

theorem Date.ofDay?_day (date : Date) : Date.ofDay? date.day = some date :=
  dif_pos ⟨date.first_le, date.le_last⟩

theorem Date.day_of_ofDay?_eq_some {day : Int} {date : Date} (h : Date.ofDay? day = some date) :
    date.day = day := by
  rw [Date.ofDay?] at h
  split at h
  · rw [← Option.some.inj h]
  · cases h

/-- The date after another one is the next one of the calendar. -/
theorem Date.ofDay?_succ (date : Date) :
    Date.ofDay? (date.day + 1) = Date.ofCivil? date.civil.next := by
  have hvalid : date.civil.IsValid := Civil.isValid_ofDays date.day
  rw [Date.ofCivil?, if_pos hvalid.next, Date.civil, ← Civil.ofDays_succ, Civil.toDays_ofDays]

namespace Instant

/-- A second from the first one of the calendar to the last one. -/
def InCalendar (second : Int) : Prop :=
  secondsPerDay * Civil.toDays ⟨-262143, 1, 1⟩ ≤ second
    ∧ second < secondsPerDay * (Civil.toDays ⟨262142, 12, 31⟩ + 1)

/-- The same time of the day after. -/
def dayLater (a : Instant) : Instant := a.later secondsPerDay

/-- The way back from a leap second ends in the last second of a day, and slips into the next one. -/
def Slips (a : Instant) (offset : Int) : Prop :=
  a.inLeap = true ∧ offset < 0 ∧ (a.seconds + offset) % secondsPerDay = secondsPerDay - 1

/-! ## Going on and going back -/

variable {a : Instant} {offset : Int}

theorem seconds_later_of_leap (hleap : a.inLeap = true) (hback : offset < 0) :
    (a.later offset).seconds = a.seconds + offset + 1 := by
  have hne : offset ≠ 0 := by omega
  simp only [later, hleap, hne, hback, ne_eq, not_false_eq_true, decide_true, Bool.and_true, if_true]
  omega

theorem seconds_later (h : ¬ (a.inLeap = true ∧ offset < 0)) :
    (a.later offset).seconds = a.seconds + offset := by
  unfold later
  split
  · rename_i hleaves
    rw [Bool.and_eq_true] at hleaves
    have hforth : ¬ offset < 0 := fun hback => h ⟨hleaves.1, hback⟩
    simp only [hforth, if_false]
  · rfl

/-- Going back or on keeps the order of instants. -/
theorem seconds_later_le {a b : Instant} (h : b.before a = false) (offset : Int) :
    (a.later offset).seconds ≤ (b.later offset).seconds := by
  simp only [before, Bool.or_eq_false_iff, Bool.and_eq_false_imp, decide_eq_false_iff_not,
    decide_eq_true_eq] at h
  obtain ⟨hle, hnanos⟩ := h
  by_cases ha : a.inLeap = true ∧ offset < 0
  · rw [seconds_later_of_leap ha.1 ha.2]
    by_cases hb : b.inLeap = true ∧ offset < 0
    · rw [seconds_later_of_leap hb.1 hb.2]
      omega
    · rw [seconds_later hb]
      -- within a second the leap part comes last
      have hne : b.seconds ≠ a.seconds := by
        intro hsame
        have hpast := hnanos hsame
        have hleap : 1000000000 ≤ a.nanos := of_decide_eq_true ha.1
        exact hb ⟨decide_eq_true (by omega), ha.2⟩
      omega
  · rw [seconds_later ha]
    by_cases hb : b.inLeap = true ∧ offset < 0
    · rw [seconds_later_of_leap hb.1 hb.2]
      omega
    · rw [seconds_later hb]
      omega

theorem seconds_dayLater (a : Instant) : a.dayLater.seconds = a.seconds + secondsPerDay :=
  seconds_later fun h => absurd h.2 (by decide)

/-- A day later the leap second is over. -/
theorem inLeap_dayLater (a : Instant) : a.dayLater.inLeap = false := by
  have hlt := a.nanos_lt
  unfold dayLater later
  split
  · simp only [inLeap, decide_eq_false_iff_not]
    omega
  · rename_i hstays
    have hday : decide ((secondsPerDay : Int) ≠ 0) = true := by decide
    rw [hday, Bool.and_true, Bool.not_eq_true] at hstays
    exact hstays

/-- The day that is reached is the one of the zone, unless the way slips into the next one. -/
theorem zoneDay_later_of_slips (h : a.Slips offset) :
    (a.later offset).zoneDay 0 = a.zoneDay offset + 1 := by
  obtain ⟨hleap, hback, hlast⟩ := h
  simp only [zoneDay, seconds_later_of_leap hleap hback, secondsPerDay] at hlast ⊢
  omega

theorem zoneDay_later (h : ¬ a.Slips offset) : (a.later offset).zoneDay 0 = a.zoneDay offset := by
  by_cases hback : a.inLeap = true ∧ offset < 0
  · have hlast : (a.seconds + offset) % secondsPerDay ≠ secondsPerDay - 1 :=
      fun hlast => h ⟨hback.1, hback.2, hlast⟩
    simp only [zoneDay, seconds_later_of_leap hback.1 hback.2, secondsPerDay] at hlast ⊢
    omega
  · rw [zoneDay, zoneDay, seconds_later hback, Int.add_zero]

theorem zoneDay_dayLater : (a.dayLater.later offset).zoneDay 0 = a.zoneDay offset + 1 := by
  have hkeeps : ¬ a.dayLater.Slips offset := by
    rintro ⟨hleap, -⟩
    rw [inLeap_dayLater] at hleap
    cases hleap
  rw [zoneDay_later hkeeps]
  simp only [zoneDay, seconds_dayLater, secondsPerDay]
  omega

/-! ## Days and hours -/

theorem zoneDay_add_localSecond (a : Instant) (offset : Int) :
    secondsPerDay * a.zoneDay offset + a.localSecond offset = a.seconds + offset
      ∧ a.localSecond offset < secondsPerDay := by
  simp only [zoneDay, localSecond, secondsPerDay]
  omega

theorem localHour_bounds (a : Instant) (offset : Int) :
    3600 * a.localHour offset ≤ a.localSecond offset
      ∧ a.localSecond offset < 3600 * a.localHour offset + 3600 ∧ a.localHour offset < 24 := by
  have hday := (zoneDay_add_localSecond a offset).2
  rw [secondsPerDay] at hday
  rw [localHour]
  omega

theorem localHour_dayLater (a : Instant) (offset : Int) :
    a.dayLater.localHour offset = a.localHour offset := by
  simp only [localHour, localSecond, seconds_dayLater, secondsPerDay]
  omega

/-- An instant that is shifted within the calendar has a local date. -/
theorem localDate?_eq_some (h : InCalendar (a.later offset).seconds) :
    ∃ date, a.localDate? offset = some date ∧ date.day = (a.later offset).zoneDay 0 := by
  obtain ⟨hfirst, hlast⟩ := h
  obtain ⟨hsplit, hsecond⟩ := zoneDay_add_localSecond (a.later offset) 0
  rw [secondsPerDay] at hfirst hlast hsplit hsecond
  exact Date.ofDay?_eq_some (by omega) (by omega)

/-! ## Agreement -/

/-- The sum of an instant and an offset of 32 bits has 64 bits when it is shifted within the
    calendar. -/
theorem toInt_seconds_add {offset : Int32} (h : InCalendar (a.later offset.toInt).seconds) :
    (Int64.ofInt a.seconds).toInt = a.seconds
      ∧ (Int64.ofInt a.seconds + offset.toInt64).toInt = a.seconds + offset.toInt := by
  obtain ⟨hfirst, hlast⟩ := h
  rw [secondsPerDay, show Civil.toDays ⟨-262143, 1, 1⟩ = -96465292 by decide] at hfirst
  rw [secondsPerDay, show Civil.toDays ⟨262142, 12, 31⟩ = 95026236 by decide] at hlast
  have hleast := Int32.le_toInt offset
  have hmost := Int32.toInt_lt offset
  have hshifted : (a.later offset.toInt).seconds = a.seconds + offset.toInt
      ∨ (a.later offset.toInt).seconds = a.seconds + offset.toInt + 1 := by
    by_cases hback : a.inLeap = true ∧ offset.toInt < 0
    · exact .inr (seconds_later_of_leap hback.1 hback.2)
    · exact .inl (seconds_later hback)
  have hseconds : (Int64.ofInt a.seconds).toInt = a.seconds :=
    Int64.toInt_ofInt_of_le (by omega) (by omega)
  refine ⟨hseconds, ?_⟩
  rw [Int64.toInt_add, hseconds, Int32.toInt_toInt64]
  exact Int.bmod_eq_of_le (by omega) (by omega)

/-- The shifted instant lies in the local hour of a date. -/
def LiesIn (a : Instant) (offset : Int) (date : Date) : Prop :=
  secondsPerDay * date.civil.toDays + 3600 * a.localHour offset ≤ a.seconds + offset
    ∧ a.seconds + offset < secondsPerDay * date.civil.toDays + 3600 * a.localHour offset + 3600

theorem liesIn_iff {date : Date} : a.LiesIn offset date ↔ date.day = a.zoneDay offset := by
  obtain ⟨hsplit, hsecond⟩ := zoneDay_add_localSecond a offset
  obtain ⟨hbegins, hends, h24⟩ := localHour_bounds a offset
  rw [LiesIn, date.toDays_civil]
  rw [secondsPerDay] at *
  omega

/-- The date that is reached is the one of the zone, unless the way slips into the next day. -/
theorem day_eq_zoneDay_iff {date : Date} (hdate : date.day = (a.later offset).zoneDay 0) :
    date.day = a.zoneDay offset ↔ ¬ a.Slips offset := by
  constructor
  · intro hday hslips
    have hnext := zoneDay_later_of_slips hslips
    omega
  · intro hkeeps
    rw [hdate, zoneDay_later hkeeps]

/-- A day later it is the next date of the calendar, unless it had slipped into that one before. -/
theorem localDate?_dayLater_iff {date : Date} (hdate : date.day = (a.later offset).zoneDay 0) :
    a.dayLater.localDate? offset = Date.ofCivil? date.civil.next ↔ ¬ a.Slips offset := by
  have hlater : a.dayLater.localDate? offset = Date.ofDay? (a.zoneDay offset + 1) := by
    rw [localDate?, zoneDate?, zoneDay_dayLater]
  rw [hlater, ← Date.ofDay?_succ, ← day_eq_zoneDay_iff hdate]
  constructor
  · intro hsame
    by_contra hday
    -- the day after is the date itself, and no date is the one after itself
    have hslips : a.Slips offset := by
      by_contra hkeeps
      exact hday ((day_eq_zoneDay_iff hdate).2 hkeeps)
    rw [← zoneDay_later_of_slips hslips, ← hdate, date.ofDay?_day] at hsame
    have hnext := Date.day_of_ofDay?_eq_some hsame.symm
    omega
  · intro hday
    rw [hday]

/-- Local date and local hour agree exactly where the date does not slip. Whenever the shifted instant
    lies in the calendar there is a local date, the hour is one of a day, and no sum leaves its 64 bits.
    The shifted instant lies in the local hour of the local date, and the same time of the day after has
    the next date of the calendar, if there is one, and the same hour, except on the way back from a
    leap second to the last second of a day. -/
theorem localDate_localHour_agree_iff (a : Instant) (offset : Int32)
    (h : InCalendar (a.later offset.toInt).seconds) :
    a.localHour offset.toInt < 24
      ∧ (Int64.ofInt a.seconds).toInt = a.seconds
      ∧ (Int64.ofInt a.seconds + offset.toInt64).toInt = a.seconds + offset.toInt
      ∧ a.dayLater.localHour offset.toInt = a.localHour offset.toInt
      ∧ ∃ date, a.localDate? offset.toInt = some date ∧ date.civil.IsValid
        ∧ (a.LiesIn offset.toInt date ↔ ¬ a.Slips offset.toInt)
        ∧ (a.dayLater.localDate? offset.toInt = Date.ofCivil? date.civil.next
          ↔ ¬ a.Slips offset.toInt) := by
  obtain ⟨date, hdate, hday⟩ := localDate?_eq_some h
  obtain ⟨hseconds, hsum⟩ := toInt_seconds_add h
  exact ⟨(localHour_bounds a offset.toInt).2.2, hseconds, hsum, localHour_dayLater a offset.toInt,
    date, hdate, Civil.isValid_ofDays date.day, liesIn_iff.trans (day_eq_zoneDay_iff hday),
    localDate?_dayLater_iff hday⟩

/-- Half an hour and half a second into March 1968 it is still the leap day an hour west. A day later it
    is the first of March there. -/
theorem localDate_localHour_leapDay :
    let a : Instant := ⟨-57972600, 500000000, by decide⟩
    InCalendar (a.later (Int32.toInt (-3600))).seconds
      ∧ ∃ date, a.localDate? (Int32.toInt (-3600)) = some date ∧ date.civil = ⟨1968, 2, 29⟩
        ∧ a.localHour (Int32.toInt (-3600)) = 23 ∧ a.LiesIn (Int32.toInt (-3600)) date
        ∧ a.dayLater.localDate? (Int32.toInt (-3600)) = Date.ofCivil? ⟨1968, 3, 1⟩ := by
  intro a
  have hrange : InCalendar (a.later (Int32.toInt (-3600))).seconds := by constructor <;> decide
  obtain ⟨-, -, -, -, date, hdate, -, hlies, hnext⟩ := localDate_localHour_agree_iff a (-3600) hrange
  have hkeeps : ¬ a.Slips (Int32.toInt (-3600)) := fun h => absurd h.1 (by decide)
  have hcivil : date.civil = ⟨1968, 2, 29⟩ := by
    have hfound : a.localDate? (Int32.toInt (-3600)) = Date.ofDay? (-672) := by decide
    rw [hfound] at hdate
    obtain rfl := Option.some.inj hdate
    decide
  refine ⟨hrange, date, hdate, hcivil, by decide, hlies.2 hkeeps, ?_⟩
  rw [hnext.2 hkeeps, hcivil]
  decide

/-- A day west of the leap second at the end of 2016 the local hour is the last one, and the local date
    the one after it. A day later it is still the same date. -/
theorem parted_at_leapSecond :
    let a : Instant := ⟨1483228799, 1500000000, by decide⟩
    InCalendar (a.later (Int32.toInt (-86400))).seconds
      ∧ ∃ date, a.localDate? (Int32.toInt (-86400)) = some date ∧ date.civil = ⟨2016, 12, 31⟩
        ∧ a.localHour (Int32.toInt (-86400)) = 23
        ∧ ¬ secondsPerDay * date.civil.toDays + 3600 * a.localHour (Int32.toInt (-86400))
          ≤ a.seconds + Int32.toInt (-86400)
        ∧ a.dayLater.localDate? (Int32.toInt (-86400)) ≠ Date.ofCivil? date.civil.next := by
  intro a
  refine ⟨by constructor <;> decide, ⟨17166, by decide, by decide⟩, ?_⟩
  decide

end Instant

end ScanFleet
