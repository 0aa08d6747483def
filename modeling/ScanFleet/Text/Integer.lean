set_option autoImplicit false

/-! # Decimal integers in text

An integer is written in ASCII digits, leading zeros allowed, with an optional plus sign; a minus
sign is read only where negative values are wanted. A number outside the wanted range is refused,
like any text with a character that is not a digit. -/

namespace ScanFleet

/-- The number that digits stand for, most significant first, continuing from `value`. -/
def digitsValue (value : Nat) : List Char → Nat
  | [] => value
  | c :: rest => digitsValue (10 * value + (c.toNat - '0'.toNat)) rest

/-- Reads a text of one or more ASCII digits. -/
def readDigits? (text : List Char) : Option Nat :=
  if text ≠ [] ∧ text.all Char.isDigit then some (digitsValue 0 text) else none

/-- Reads a natural number that is at most `most`, with an optional plus sign. -/
def readNat? (most : Nat) (text : List Char) : Option Nat :=
  let digits := match text with
    | '+' :: rest => rest
    | _ => text
  (readDigits? digits).filter (· ≤ most)

/-- Reads an integer between `least` and `most`, with an optional sign. -/
def readInt? (least most : Int) (text : List Char) : Option Int :=
  let value := match text with
    | '+' :: rest => (readDigits? rest).map Int.ofNat
    | '-' :: rest => (readDigits? rest).map fun n => -(n : Int)
    | _ => (readDigits? text).map Int.ofNat
  value.filter fun n => least ≤ n ∧ n ≤ most

/-- Reads a signed integer of 32 bits. -/
def readInt32? : List Char → Option Int := readInt? Int32.minValue.toInt Int32.maxValue.toInt

/-- The decimal digits of a number. -/
def natText (n : Nat) : List Char := Nat.toDigits 10 n

/-- The decimal digits of a number, with zeros in front up to the given width. -/
def paddedText (width n : Nat) : List Char :=
  List.replicate (width - (natText n).length) '0' ++ natText n

end ScanFleet
