import ScanFleet.Json.Number

set_option autoImplicit false

/-! # Reading JSON text

The grammar is strict: no comments, no trailing commas, no leading zeros, no blank characters but
space, tab and line ends, nothing after the value. -/

namespace ScanFleet.Json

/-- Containers may stand this deep inside each other; a deeper one denotes nothing. -/
def depthLimit : Nat := 127

/-- What follows the blanks at the start. -/
def skipSpace (text : List Char) : List Char :=
  text.dropWhile fun c => c = ' ' || c = '\t' || c = '\n' || c = '\r'

/-- What follows `c`, blanks in front of it skipped. -/
def expect? (c : Char) (text : List Char) : Option (List Char) :=
  match skipSpace text with
  | d :: rest => if d = c then some rest else none
  | [] => none

/-! ## Strings -/

/-- The value of a hexadecimal digit. -/
def hexDigit? (c : Char) : Option Nat :=
  if '0' ≤ c ∧ c ≤ '9' then some (c.toNat - '0'.toNat)
  else if 'a' ≤ c ∧ c ≤ 'f' then some (c.toNat - 'a'.toNat + 10)
  else if 'A' ≤ c ∧ c ≤ 'F' then some (c.toNat - 'A'.toNat + 10)
  else none

/-- A unit of a string: a character, or sixteen bits written as an escape. -/
inductive Unit16 where
  | char (c : Char)
  | escaped (bits : Nat)
  deriving DecidableEq, Repr

/-- Reads the rest of a string, up to and including the closing quote. -/
def readUnits? : List Char → Option (List Unit16 × List Char)
  | '"' :: rest => some ([], rest)
  | '\\' :: 'u' :: a :: b :: c :: d :: rest => do
    let bits := 4096 * (← hexDigit? a) + 256 * (← hexDigit? b) + 16 * (← hexDigit? c) + (← hexDigit? d)
    let (units, rest) ← readUnits? rest
    return (.escaped bits :: units, rest)
  | '\\' :: e :: rest => do
    let c ← match e with
      | '"' => some '"'
      | '\\' => some '\\'
      | '/' => some '/'
      | 'b' => some '\x08'
      | 'f' => some '\x0c'
      | 'n' => some '\n'
      | 'r' => some '\r'
      | 't' => some '\t'
      | _ => none
    let (units, rest) ← readUnits? rest
    return (.char c :: units, rest)
  | c :: rest => do
    if c.toNat < 0x20 then none
    let (units, rest) ← readUnits? rest
    return (.char c :: units, rest)
  | [] => none

/-- The characters that units stand for; two escapes may form a surrogate pair, and half of a pair stands
    for nothing. -/
def unitsText? : List Unit16 → Option (List Char)
  | [] => some []
  | .char c :: rest => (unitsText? rest).map (c :: ·)
  | .escaped high :: .escaped low :: rest =>
    if 0xD800 ≤ high ∧ high < 0xDC00 then
      if 0xDC00 ≤ low ∧ low < 0xE000 then
        (unitsText? rest).map (Char.ofNat (0x10000 + 0x400 * (high - 0xD800) + (low - 0xDC00)) :: ·)
      else none
    else if 0xDC00 ≤ high ∧ high < 0xE000 then none
    else (unitsText? (.escaped low :: rest)).map (Char.ofNat high :: ·)
  | .escaped bits :: rest =>
    if 0xD800 ≤ bits ∧ bits < 0xE000 then none
    else (unitsText? rest).map (Char.ofNat bits :: ·)

/-! ## Numbers -/

/-- Splits the digits off the front. -/
def readDigits (text : List Char) : List Nat × List Char :=
  ((text.takeWhile Char.isDigit).map fun c => c.toNat - '0'.toNat, text.dropWhile Char.isDigit)

/-- The number with the given digits. -/
def digitsNat (digits : List Nat) : Nat := digits.foldl (fun n d => 10 * n + d) 0

/-- Reads the fraction of a number, if there is one: a point and at least one digit. -/
def readFraction? : List Char → Option (Option (List Nat) × List Char)
  | '.' :: rest =>
    let (digits, rest) := readDigits rest
    if digits.isEmpty then none else some (some digits, rest)
  | rest => some (none, rest)

/-- Reads the exponent of a number, if there is one: a sign may precede its digits. -/
def readExponent? : List Char → Option (Option Int × List Char)
  | c :: rest =>
    if c = 'e' ∨ c = 'E' then
      let (negative, rest) := match rest with
        | '-' :: rest => (true, rest)
        | '+' :: rest => (false, rest)
        | _ => (false, rest)
      let (digits, rest) := readDigits rest
      let n : Int := digitsNat digits
      if digits.isEmpty then none else some (some (if negative then -n else n), rest)
    else some (none, c :: rest)
  | [] => some (none, [])

/-- Reads a number: no leading zeros, at least one digit before and after a point. -/
def readNumber? (text : List Char) : Option (NumberLiteral × List Char) := do
  let (negative, text) := match text with
    | '-' :: rest => (true, rest)
    | _ => (false, text)
  let (whole, text) := readDigits text
  if whole.isEmpty || (whole.head? = some 0 && whole.length ≠ 1) then none
  let (fraction, text) ← readFraction? text
  let (exponent, text) ← readExponent? text
  return (⟨negative, whole, fraction, exponent⟩, text)

/-! ## Values -/

/-- A container at the given depth, counting itself. -/
def atDepth (depth : Nat) (container : Json) : Json :=
  if depth ≤ depthLimit then container else .void

/-- An object denotes nothing when one of its names denotes nothing. -/
def ofMembers (members : List (Option (List Char) × Json)) : Json :=
  match members.mapM fun (name, value) => name.map fun n => (String.ofList n, value) with
  | some members => .object members
  | none => .void

mutual

/-- Reads a value that stands inside `depth` containers; `fuel` bounds the characters ahead. -/
def readValue? : Nat → Nat → List Char → Option (Json × List Char)
  | 0, _, _ => none
  | fuel + 1, depth, chars =>
    match skipSpace chars with
    | 'n' :: 'u' :: 'l' :: 'l' :: rest => some (.null, rest)
    | 't' :: 'r' :: 'u' :: 'e' :: rest => some (.bool true, rest)
    | 'f' :: 'a' :: 'l' :: 's' :: 'e' :: rest => some (.bool false, rest)
    | '"' :: rest => do
      let (units, rest) ← readUnits? rest
      return (((unitsText? units).map fun cs => Json.text (String.ofList cs)).getD .void, rest)
    | '[' :: rest =>
      match expect? ']' rest with
      | some rest => some (atDepth (depth + 1) (.list []), rest)
      | none => do
        let (items, rest) ← readItems? fuel (depth + 1) rest
        return (atDepth (depth + 1) (.list items), rest)
    | '\x7b' :: rest =>
      match expect? '\x7d' rest with
      | some rest => some (atDepth (depth + 1) (.object []), rest)
      | none => do
        let (members, rest) ← readMembers? fuel (depth + 1) rest
        return (atDepth (depth + 1) (ofMembers members), rest)
    | rest => (readNumber? rest).map fun (literal, rest) => (literal.value, rest)

/-- Reads one or more items and the bracket that closes them. -/
def readItems? : Nat → Nat → List Char → Option (List Json × List Char)
  | 0, _, _ => none
  | fuel + 1, depth, chars => do
    let (item, rest) ← readValue? fuel depth chars
    match skipSpace rest with
    | ',' :: rest =>
      let (items, rest) ← readItems? fuel depth rest
      return (item :: items, rest)
    | ']' :: rest => return ([item], rest)
    | _ => none

/-- Reads one or more members and the brace that closes them. -/
def readMembers? : Nat → Nat → List Char → Option (List (Option (List Char) × Json) × List Char)
  | 0, _, _ => none
  | fuel + 1, depth, chars => do
    let (units, rest) ← readUnits? (← expect? '"' chars)
    let (value, rest) ← readValue? fuel depth (← expect? ':' rest)
    match skipSpace rest with
    | ',' :: rest =>
      let (members, rest) ← readMembers? fuel depth rest
      return ((unitsText? units, value) :: members, rest)
    | '\x7d' :: rest => return ([(unitsText? units, value)], rest)
    | _ => none

end

/-- Reads a text that holds one value and nothing else. -/
def ofText? (text : String) : Option Json := do
  let chars := text.toList
  let (value, rest) ← readValue? (2 * chars.length + 2) 0 chars
  if skipSpace rest = [] then some value else none

end ScanFleet.Json
