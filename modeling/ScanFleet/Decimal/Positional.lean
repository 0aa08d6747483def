import ScanFleet.Decimal.Shortest
import ScanFleet.Text.Integer

set_option autoImplicit false

/-! # Decimal text of a double

A double is written with the fewest digits that read back, always positionally: no exponent, no
point in a whole number, a zero before the point of a fraction, and a minus sign also on zero. Of two
equally near decimals the larger is written. -/

namespace ScanFleet.Decimal

/-- Writes `digits * 10 ^ exponent` without an exponent. -/
def Scientific.positional (d : Scientific) : List Char :=
  let digits := natText d.digits
  if 0 ≤ d.exponent then digits ++ List.replicate d.exponent.toNat '0'
  else
    let places := (-d.exponent).toNat
    let padded := List.replicate (places + 1 - digits.length) '0' ++ digits
    let whole := padded.length - places
    padded.take whole ++ '.' :: padded.drop whole

/-- The magnitude in positional notation. -/
def Magnitude.text (m : Magnitude) : List Char :=
  if m.significand = 0 then ['0'] else (m.shortest .up).positional

/-- The text of a double. -/
def floatText (x : Float) : String :=
  match Binary64.ofFloat x with
  | .nan => "NaN"
  | .infinite negative => if negative then "-inf" else "inf"
  | .finite negative m => String.ofList (if negative then '-' :: m.text else m.text)

end ScanFleet.Decimal
