import ScanFleet.Decimal.Binary64
import ScanFleet.Text.Integer

set_option autoImplicit false

/-! # Decimal text with one place

A double is rounded to one place after the point from its exact binary value; a value halfway
between two decimals goes to the even digit. -/

namespace ScanFleet.Decimal

/-- The natural number nearest to a quotient; a half goes to the even neighbour. -/
def Ratio.round (a : Ratio) : Nat :=
  let whole := a.num / a.den
  let twice := 2 * (a.num % a.den)
  if twice < a.den then whole
  else if a.den < twice then whole + 1
  else whole + whole % 2

/-- The magnitude with one place after the point. -/
def Magnitude.onePlaceText (m : Magnitude) : List Char :=
  let tenths := Ratio.round ⟨10 * m.ratio.num, m.ratio.den⟩
  natText (tenths / 10) ++ '.' :: natText (tenths % 10)

/-- The text of a double with one place after the point. -/
def onePlaceText (x : Float) : String :=
  match Binary64.ofFloat x with
  | .nan => "NaN"
  | .infinite negative => if negative then "-inf" else "inf"
  | .finite negative m =>
    String.ofList (if negative then '-' :: m.onePlaceText else m.onePlaceText)

end ScanFleet.Decimal
