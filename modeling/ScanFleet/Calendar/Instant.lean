import ScanFleet.Calendar.Date
import ScanFleet.Text.Split

set_option autoImplicit false

/-! # Instants

An instant is a count of seconds from 1970-01-01T00:00:00Z and a part of a second. A second may be
prolonged by a leap second, which no step of whole seconds reaches or keeps. An instant has a date
and a second of the day in a zone that lies a fixed number of seconds east. Its text follows
RFC 3339; the part of a second is written with the fewest of 3, 6 or 9 digits. -/

namespace ScanFleet

/-- The seconds of a day. -/
def secondsPerDay : Nat := 86400

/-- A point in time. -/
structure Instant where
  /-- Whole seconds from 1970-01-01T00:00:00Z. -/
  seconds : Int
  /-- Nanoseconds within the second; a leap second runs on to `2 * 10 ^ 9`. -/
  nanos : Nat := 0
  nanos_lt : nanos < 2000000000 := by decide
  deriving DecidableEq, Repr

namespace Instant

/-- The instant at the start of a second. -/
def ofSeconds (seconds : Int) : Instant := ⟨seconds, 0, by decide⟩

/-- Whether one instant comes before another. -/
def before (a b : Instant) : Bool :=
  a.seconds < b.seconds || (a.seconds = b.seconds && a.nanos < b.nanos)

/-- Whether the instant lies in a leap second. -/
def inLeap (a : Instant) : Bool := decide (1000000000 ≤ a.nanos)

/-- The instant some seconds later, or earlier when there are fewer than none. A leap second is left
    first: on the way forward it counts as the second that it prolongs, on the way back as the one
    after it. -/
def later (a : Instant) (seconds : Int) : Instant :=
  if a.inLeap && seconds ≠ 0 then
    { seconds := (if seconds < 0 then a.seconds + 1 else a.seconds) + seconds
      nanos := a.nanos - 1000000000
      nanos_lt := by have := a.nanos_lt; omega }
  else { a with seconds := a.seconds + seconds }

/-! ## Local time -/

/-- The day count of the date in a zone `offset` seconds east. -/
def zoneDay (a : Instant) (offset : Int) : Int := (a.seconds + offset) / secondsPerDay

/-- Seconds since midnight in a zone `offset` seconds east. -/
def localSecond (a : Instant) (offset : Int) : Nat := ((a.seconds + offset) % secondsPerDay).toNat

/-- The hour of the day in a zone `offset` seconds east. -/
def localHour (a : Instant) (offset : Int) : Nat := a.localSecond offset / 3600

/-- The date in a zone, unless the zone carries the instant out of the calendar. -/
def zoneDate? (a : Instant) (offset : Int) : Option Date := Date.ofDay? (a.zoneDay offset)

/-- The date of the instant `offset` seconds later, unless that is out of the calendar. -/
def localDate? (a : Instant) (offset : Int) : Option Date := (a.later offset).zoneDate? 0

/-! ## Clocks

A clock shows the instants from 1970 to the end of the calendar. Where it would have to stand at any
other instant it shows nothing, and what is done by the clock cannot be done. -/

/-- Whether a clock shows the instant. -/
def shown (a : Instant) : Bool := decide (0 ≤ a.seconds) && (a.zoneDate? 0).isSome

/-- The date by a clock that is read `offset` seconds later, unless it shows nothing or the date is
    out of the calendar. -/
def clockDate? (a : Instant) (offset : Int) : Option Date :=
  if a.shown then a.localDate? offset else none

/-- The date by a clock in a zone, unless it shows nothing or the zone carries the instant out of the
    calendar. -/
def zoneClockDate? (a : Instant) (offset : Int) : Option Date :=
  if a.shown then a.zoneDate? offset else none

/-- An outcome at the instant of a clock; nothing when the clock is needed for it and shows nothing. -/
def byClock {α : Type} (a : Instant) (needed : Bool) (outcome : α) : Option α :=
  if needed && !a.shown then none else some outcome

theorem byClock_of_shown {α : Type} {a : Instant} (h : a.shown = true) (needed : Bool)
    (outcome : α) : a.byClock needed outcome = some outcome := by
  simp [byClock, h]

/-! ## Text -/

/-- The part of a second with the fewest of 3, 6 or 9 digits; nothing for a whole second. -/
def fractionText (nanos : Nat) : List Char :=
  if nanos = 0 then []
  else if nanos % 1000000 = 0 then '.' :: paddedText 3 (nanos / 1000000)
  else if nanos % 1000 = 0 then '.' :: paddedText 6 (nanos / 1000)
  else '.' :: paddedText 9 nanos

/-- The text of an instant, in the zone of zero offset. -/
def text (a : Instant) : List Char :=
  let second := a.localSecond 0
  let leap := a.nanos / 1000000000
  Date.civilText (.ofDays (a.zoneDay 0)) ++ 'T' :: paddedText 2 (second / 3600)
    ++ ':' :: paddedText 2 (second / 60 % 60) ++ ':' :: paddedText 2 (second % 60 + leap)
    ++ fractionText (a.nanos % 1000000000) ++ ['Z']

/-- Reads a part of a second, if there is one, as nanoseconds; digits after the ninth are skipped. -/
def readFraction? : List Char → Option (Nat × List Char)
  | '.' :: rest =>
    let digits := rest.takeWhile Char.isDigit
    let kept := digits.take 9
    if digits.isEmpty then none
    else some (digitsValue 0 kept * Nat.pow 10 (9 - kept.length), rest.drop digits.length)
  | rest => some (0, rest)

/-- Reads two digits, the first of them at most `most`. -/
def readTwoDigits? (most : Char) : List Char → Option (Nat × List Char)
  | a :: b :: rest =>
    if a.isDigit ∧ a ≤ most ∧ b.isDigit then some (digitsValue 0 [a, b], rest) else none
  | _ => none

/-- Reads the offset of a zone in seconds: `Z`, `UTC`, or a sign, hours and minutes. -/
def readOffset? (input : List Char) : Option (Int × List Char) :=
  match trimStart input with
  | 'Z' :: rest => some (0, rest)
  | 'z' :: rest => some (0, rest)
  | c :: rest =>
    if (trimStart input).take 3 |>.map Char.toUpper |> (· = ['U', 'T', 'C']) then
      some (0, rest.drop 2)
    else do
      let sign : Int ← if c = '+' then some 1 else if c = '-' ∨ c = '−' then some (-1) else none
      let (hours, rest) ← readTwoDigits? '9' rest
      let (minutes, rest) ← readTwoDigits? '5' (rest.dropWhile fun c => c = ':' || isBlank c)
      let offset : Int := 3600 * hours + 60 * minutes
      if offset < secondsPerDay then some (sign * offset, rest) else none
  | [] => none

/-- Reads an instant. A `T` or a blank stands between date and time, and blanks may stand around the
    parts; the sixtieth second of a minute is a leap second. -/
def ofText? (input : List Char) : Option Instant := do
  let (date, rest) ← Date.readFront? input
  let rest ← match rest with
    | c :: rest => if c = 'T' ∨ c = 't' ∨ c = ' ' then some rest else none
    | [] => none
  let (hour, rest) ← Date.readField? 2 rest
  let (minute, rest) ← Date.readField? 2 (← Date.readMark? ':' rest)
  let (second, rest) ← Date.readField? 2 (← Date.readMark? ':' rest)
  if 23 < hour ∨ 59 < minute ∨ 60 < second then none
  let (nanos, rest) ← readFraction? rest
  let (offset, rest) ← readOffset? rest
  if trimStart rest ≠ [] then none
  let whole := if second = 60 then 59 else second
  let nanos := if second = 60 then nanos + 1000000000 else nanos
  let seconds := date.day * secondsPerDay + 3600 * hour + 60 * minute + whole - offset
  let _ ← Date.ofDay? (seconds / secondsPerDay)
  if h : nanos < 2000000000 then some ⟨seconds, nanos, h⟩ else none

end Instant

end ScanFleet
