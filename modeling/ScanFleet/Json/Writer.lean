import ScanFleet.Decimal.Positional
import ScanFleet.Json.Reader

set_option autoImplicit false

/-! # Writing JSON text

Text is written without blanks. A string escapes its quotes, its backslashes and its control
characters, and nothing else. A whole double of at most sixteen digits is written with a zero after
the point, any other double as its shortest digits with a power of ten; of two equally near decimals
the even one is written. -/

namespace ScanFleet.Json

/-! ## Strings -/

/-- A hexadecimal digit below sixteen. -/
def hexDigit (n : Nat) : Char := Char.ofNat (if n < 10 then 48 + n else 87 + n)

/-- A character inside a string. -/
def escape (c : Char) : List Char :=
  if c = '"' then ['\\', '"']
  else if c = '\\' then ['\\', '\\']
  else if c.toNat < 32 then ['\\', 'u', '0', '0', hexDigit (c.toNat / 16), hexDigit (c.toNat % 16)]
  else [c]

/-- A string in quotes. -/
def quoted (s : String) : List Char := '"' :: s.toList.flatMap escape ++ ['"']

/-! ## Values -/

/-- A decimal as a double: the point or the power of ten tells it from an integer. -/
def decimalText (d : Decimal.Scientific) : List Char :=
  let digits := natText d.digits
  if 0 ≤ d.exponent ∧ digits.length + d.exponent ≤ 16 then d.positional ++ ['.', '0']
  else digits ++ 'e' :: (toString d.exponent).toList

/-- A double; nothing but `null` can be written for one that is no number. -/
def doubleText (x : Float) : List Char :=
  match Decimal.Binary64.ofFloat x with
  | .finite negative m =>
    let text := decimalText (if m.significand = 0 then ⟨0, 0⟩ else m.shortest .even)
    if negative then '-' :: text else text
  | _ => "null".toList

/-- Parts with commas between them. -/
def commaSeparated : List (List Char) → List Char
  | [] => []
  | [part] => part
  | part :: rest => part ++ ',' :: commaSeparated rest

mutual

/-- The characters of a value. -/
def chars : Json → List Char
  | .null | .void => "null".toList
  | .bool b => if b then "true".toList else "false".toList
  | .int n => (toString n).toList
  | .float x => doubleText x
  | .text s => quoted s
  | .list items => '[' :: commaSeparated (charsOfItems items) ++ [']']
  | .object members => '\x7b' :: commaSeparated (charsOfMembers members) ++ ['\x7d']

/-- The characters of each item. -/
def charsOfItems : List Json → List (List Char)
  | [] => []
  | item :: rest => item.chars :: charsOfItems rest

/-- The characters of each member. -/
def charsOfMembers : List (String × Json) → List (List Char)
  | [] => []
  | (name, value) :: rest => (quoted name ++ ':' :: value.chars) :: charsOfMembers rest

end

/-- The text of a value. -/
def toText (j : Json) : String := String.ofList j.chars

end ScanFleet.Json
