import ScanFleet.Decimal.Positional
import ScanFleet.Json.Form

set_option autoImplicit false

/-! # Coordinates -/

namespace ScanFleet

/-- A place on the globe, in degrees. -/
structure Coordinate where
  lat : Float
  lon : Float
  deriving DecidableEq, Inhabited

namespace Coordinate

/-- Both numbers are finite. -/
def isFinite (c : Coordinate) : Bool := c.lat.isFinite && c.lon.isFinite

/-- The latitude lies between -90 and 90 and the longitude between -180 and 180. -/
def inRange (c : Coordinate) : Bool :=
  -90 ≤ c.lat && c.lat ≤ 90 && -180 ≤ c.lon && c.lon ≤ 180

/-- Latitude and longitude in parentheses. -/
def text (c : Coordinate) : String :=
  "(" ++ Decimal.floatText c.lat ++ ", " ++ Decimal.floatText c.lon ++ ")"

instance : JsonForm Coordinate where
  toJson c := .object [("lat", toJson c.lat), ("lon", toJson c.lon)]
  ofJson? j := do
    let r ← j.record? ["lat", "lon"]
    return ⟨← r.required "lat", ← r.required "lon"⟩

end Coordinate

end ScanFleet
