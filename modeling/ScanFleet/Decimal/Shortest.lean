import ScanFleet.Decimal.Binary64

set_option autoImplicit false

/-! # Shortest digits

The shortest decimal of a double is the decimal with the fewest significant digits that reads back
as the double; of several with so few digits it is the nearest. Of two equally near, the format that
writes the decimal says which it takes.

On the grid of numbers with a given count of digits, if any point reads back then one of the two
neighbours of the value does, so only these two are tried. -/

namespace ScanFleet.Decimal

/-- The decimal `digits * 10 ^ exponent`. -/
structure Scientific where
  digits : Nat
  exponent : Int
  deriving DecidableEq, Repr

namespace Scientific

/-- The decimal as a quotient of natural numbers. -/
def ratio (d : Scientific) : Ratio :=
  ⟨d.digits * Nat.pow 10 d.exponent.toNat, Nat.pow 10 (-d.exponent).toNat⟩

end Scientific

namespace Ratio

/-- Less than, by cross multiplication. -/
def lt (a b : Ratio) : Bool := a.num * b.den < b.num * a.den

/-- At most, by cross multiplication. -/
def le (a b : Ratio) : Bool := a.num * b.den ≤ b.num * a.den

/-- The distance between two quotients. -/
def distance (a b : Ratio) : Ratio :=
  let x := a.num * b.den
  let y := b.num * a.den
  ⟨(x - y) + (y - x), a.den * b.den⟩

/-- The whole part of `a / 10 ^ e`. -/
def floorAt (a : Ratio) (e : Int) : Nat :=
  a.num * Nat.pow 10 (-e).toNat / (a.den * Nat.pow 10 e.toNat)

/-- The exponent of the first decimal digit: `10 ^ e ≤ a < 10 ^ (e + 1)` for a positive `a`. -/
def leadingExponent (a : Ratio) : Int :=
  let guess : Int := (Nat.toDigits 10 a.num).length - (Nat.toDigits 10 a.den).length
  if a.floorAt guess = 0 then guess - 1 else guess

end Ratio

/-- Whether the decimal lies in the interval of numbers that round to the magnitude. -/
def Magnitude.readsBack (m : Magnitude) (d : Scientific) : Bool :=
  let (lower, upper) := m.halfway
  if m.closed then lower.le d.ratio && d.ratio.le upper
  else lower.lt d.ratio && d.ratio.lt upper

/-- Which of two equally near decimals a format takes. -/
inductive Tie where
  /-- The larger one. -/
  | up
  /-- The one whose last digit is even. -/
  | even
  deriving DecidableEq, Repr

/-- Whether the lower of two equally near decimals is taken. -/
def Tie.takesLower (tie : Tie) (lower : Scientific) : Bool :=
  match tie with
  | .up => false
  | .even => lower.digits % 2 = 0

/-- The decimal with `count` digits that reads back and is nearest to the magnitude, if one does. -/
def Magnitude.onGrid (m : Magnitude) (tie : Tie) (count : Nat) : Option Scientific :=
  let value := m.ratio
  let e := value.leadingExponent - count + 1
  let below : Scientific := ⟨value.floorAt e, e⟩
  let above : Scientific :=
    if value.floorAt e + 1 = Nat.pow 10 count then ⟨Nat.pow 10 (count - 1), e + 1⟩
    else ⟨value.floorAt e + 1, e⟩
  match m.readsBack below, m.readsBack above with
  | true, true =>
    let down := below.ratio.distance value
    let up := above.ratio.distance value
    if down.lt up || (!up.lt down && tie.takesLower below) then some below else some above
  | true, false => some below
  | false, true => some above
  | false, false => none

/-- The shortest decimal of a positive magnitude. Seventeen digits always read back. -/
def Magnitude.shortest (m : Magnitude) (tie : Tie) : Scientific :=
  ((List.range 17).findSome? fun i => m.onGrid tie (i + 1)).getD
    ⟨m.ratio.floorAt (m.ratio.leadingExponent - 16), m.ratio.leadingExponent - 16⟩

end ScanFleet.Decimal
