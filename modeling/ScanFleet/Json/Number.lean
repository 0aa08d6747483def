import ScanFleet.Json.Value

set_option autoImplicit false

/-! # JSON numbers

A number without fraction and exponent that fits 64 bits is an integer; every other number, and
minus zero, is a double. The digits of such a number are gathered into a significand of 64 bits,
which is scaled by a power of ten with one rounded operation. A digit that does not fit the
significand is left out. -/

namespace ScanFleet.Json

/-- A number as it is written. -/
structure NumberLiteral where
  negative : Bool
  /-- The digits before the point. -/
  whole : List Nat
  /-- The digits after the point, if there is one. -/
  fraction : Option (List Nat)
  /-- The exponent, if there is one. -/
  exponent : Option Int
  deriving DecidableEq, Repr

/-- Appends digits to a significand as long as it fits 64 bits; also how many digits were left out. -/
def gather (significand : Nat) : List Nat → Nat × Nat
  | [] => (significand, 0)
  | d :: rest =>
    if 10 * significand + d < UInt64.size then gather (10 * significand + d) rest
    else (significand, rest.length + 1)

/-- A power of ten as a double. -/
def powerOfTen (k : Nat) : Float := Float.ofScientific 1 false k

/-- The significand times a power of ten; nothing beyond the doubles. A scale that is too small for a
    double is applied in two steps. -/
def scale? (significand : Nat) (exponent : Int) : Option Float :=
  let x := Float.ofNat significand
  let k := exponent.natAbs
  if significand = 0 then some x
  else if 0 ≤ exponent then
    if k ≤ 308 then some (x * powerOfTen k) |>.filter (·.isFinite) else none
  else if k ≤ 308 then some (x / powerOfTen k)
  else if k ≤ 616 then some (x / powerOfTen 308 / powerOfTen (k - 308))
  else some 0

/-- The value of a written number. -/
def NumberLiteral.value (literal : NumberLiteral) : Json :=
  let (whole, dropped) := gather 0 literal.whole
  let float (significand : Nat) (exponent : Int) : Json :=
    match scale? significand exponent with
    | some x => .float (if literal.negative then -x else x)
    | none => .void
  match literal.fraction, literal.exponent with
  | none, none =>
    if dropped ≠ 0 then float whole dropped
    else if ¬ literal.negative then .int whole
    else if 0 < whole ∧ Int64.minValue.toInt ≤ -whole then .int (-whole)
    else float whole 0
  | fraction, exponent =>
    let digits := fraction.getD []
    let (significand, left) := gather whole digits
    float significand (dropped - (digits.length - left : Nat) + exponent.getD 0)

end ScanFleet.Json
