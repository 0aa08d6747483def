import ScanFleet.Calendar.Civil
import ScanFleet.Text.Blank
import ScanFleet.Text.Integer

set_option autoImplicit false

/-! # Dates

A date is a day of the civil calendar between the years -262143 and 262142, held as its count of
days from 1970-01-01. Its text is the year with at least four digits, the month and the day; a year
before 0 or after 9999 carries its sign. -/

namespace ScanFleet

/-- A day of the calendar. -/
structure Date where
  /-- Days from 1970-01-01. -/
  day : Int
  first_le : -96465292 ≤ day
  le_last : day ≤ 95026236
  deriving DecidableEq, Repr

namespace Date

/-- The date at a day count, if the calendar reaches so far. -/
def ofDay? (day : Int) : Option Date :=
  if h : -96465292 ≤ day ∧ day ≤ 95026236 then some ⟨day, h.1, h.2⟩ else none

/-- The day before, unless the date is the first one. -/
def before? (date : Date) : Option Date := ofDay? (date.day - 1)

/-- The year, the month and the day. -/
def civil (date : Date) : Civil := .ofDays date.day

/-- The date with the given year, month and day, if there is one. -/
def ofCivil? (c : Civil) : Option Date := if c.IsValid then ofDay? c.toDays else none

@[ext] theorem ext_day {a b : Date} (h : a.day = b.day) : a = b := by
  cases a; cases b; cases h; rfl

/-! ## Text -/

/-- A year with at least four digits; outside of 0 to 9999 with its sign. -/
def yearText (year : Int) : List Char :=
  if 0 ≤ year ∧ year ≤ 9999 then paddedText 4 year.toNat
  else (if year < 0 then '-' else '+') :: paddedText 4 year.natAbs

/-- Year, month and day, joined by hyphens. -/
def civilText (c : Civil) : List Char :=
  yearText c.year ++ '-' :: paddedText 2 c.month ++ '-' :: paddedText 2 c.day

/-- The text of a date. -/
def text (date : Date) : List Char := civilText date.civil

/-- Reads up to `most` digits, at least one, blanks in front skipped. -/
def readField? (most : Nat) (input : List Char) : Option (Nat × List Char) :=
  let input := trimStart input
  let digits := (input.take most).takeWhile Char.isDigit
  if digits.isEmpty then none else some (digitsValue 0 digits, input.drop digits.length)

/-- Reads a year: four digits at most, or a sign and any number of digits. -/
def readYear? (input : List Char) : Option (Int × List Char) :=
  match trimStart input with
  | '-' :: rest =>
    if rest.head?.any Char.isDigit then
      (readField? rest.length rest).map fun (n, rest) => (-(n : Int), rest)
    else none
  | '+' :: rest =>
    if rest.head?.any Char.isDigit then
      (readField? rest.length rest).map fun (n, rest) => ((n : Int), rest)
    else none
  | rest => (readField? 4 rest).map fun (n, rest) => ((n : Int), rest)

/-- Reads one given character, blanks in front skipped. -/
def readMark? (mark : Char) (input : List Char) : Option (List Char) :=
  match trimStart input with
  | c :: rest => if c = mark then some rest else none
  | [] => none

/-- Reads a date off the front of a text. -/
def readFront? (input : List Char) : Option (Date × List Char) := do
  let (year, rest) ← readYear? input
  let (month, rest) ← readField? 2 (← readMark? '-' rest)
  let (day, rest) ← readField? 2 (← readMark? '-' rest)
  return (← ofCivil? ⟨year, month, day⟩, rest)

/-- Reads a text that holds a date and nothing else but blanks around its parts. -/
def ofText? (input : List Char) : Option Date := do
  let (date, rest) ← readFront? input
  if trimStart rest = [] then some date else none

end Date

end ScanFleet
