set_option autoImplicit false

/-! # Doubles as binary fractions

A finite double is a sign and a natural number times a power of two. This module takes a double
apart, so that its decimal text can be computed in exact arithmetic. -/

namespace ScanFleet.Decimal

/-- A finite magnitude `significand * 2 ^ exponent`, as a double holds it. -/
structure Magnitude where
  /-- Below `2 ^ 53`. -/
  significand : Nat
  /-- At least `-1074`. -/
  exponent : Int
  deriving DecidableEq, Repr

/-- What a double stands for. -/
inductive Binary64 where
  | nan
  | infinite (negative : Bool)
  | finite (negative : Bool) (magnitude : Magnitude)
  deriving DecidableEq, Repr

/-- Takes the 64 bits apart: a sign, eleven bits of exponent and fifty-two of fraction. -/
def Binary64.ofFloat (x : Float) : Binary64 :=
  let bits := x.toBits.toNat
  let negative := bits >>> 63 = 1
  let exponent : Nat := (bits >>> 52) % (1 <<< 11)
  let fraction : Nat := bits % (1 <<< 52)
  if exponent = (1 <<< 11) - 1 then
    if fraction = 0 then .infinite negative else .nan
  else if exponent = 0 then .finite negative ⟨fraction, -1074⟩
  else .finite negative ⟨(1 <<< 52) + fraction, (exponent : Int) - 1075⟩

/-- A positive rational number as a quotient of natural numbers. -/
structure Ratio where
  num : Nat
  den : Nat
  deriving DecidableEq, Repr

/-- The quotient `n * 2 ^ e`. -/
def Ratio.scaled (n : Nat) (e : Int) : Ratio := ⟨n <<< e.toNat, 1 <<< (-e).toNat⟩

/-- The value of the magnitude. -/
def Magnitude.ratio (m : Magnitude) : Ratio := .scaled m.significand m.exponent

/-- The two halfway points to the neighbouring doubles, lower and upper: the interval of numbers that
    round to the magnitude. Below a power of two the neighbours stand twice as close. -/
def Magnitude.halfway (m : Magnitude) : Ratio × Ratio :=
  let lower :=
    if m.significand = 1 <<< 52 ∧ -1074 < m.exponent then
      Ratio.scaled (4 * m.significand - 1) (m.exponent - 2)
    else Ratio.scaled (2 * m.significand - 1) (m.exponent - 1)
  (lower, .scaled (2 * m.significand + 1) (m.exponent - 1))

/-- Whether the halfway points themselves round to the magnitude: a tie goes to an even significand. -/
def Magnitude.closed (m : Magnitude) : Bool := m.significand % 2 = 0

end ScanFleet.Decimal
