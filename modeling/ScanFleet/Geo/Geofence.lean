import ScanFleet.Json.Form

set_option autoImplicit false

/-! # Geofences -/

namespace ScanFleet

/-- What a geofence outlines. -/
inductive GeofenceKind where
  | circle
  | polygon
  deriving DecidableEq, Repr, Inhabited

namespace GeofenceKind

/-- The name of a kind. -/
def name : GeofenceKind → String
  | .circle => "circle"
  | .polygon => "polygon"

/-- The kind with the given name. -/
def ofName? (name : String) : Option GeofenceKind :=
  [circle, polygon].find? fun kind => kind.name == name

/-- A kind is written as its name, and also read from an object whose only member is `null` under that
    name. -/
instance : JsonForm GeofenceKind where
  toJson kind := .text kind.name
  ofJson?
    | .text name => ofName? name
    | .object [(name, .null)] => ofName? name
    | _ => none

end GeofenceKind

/-- A named area as it is stored; the payload may be any JSON value. -/
structure Geofence where
  name : String
  kind : GeofenceKind
  area : Json
  deriving Inhabited

namespace Geofence

instance : Keyed Geofence String := ⟨Geofence.name⟩

instance : JsonForm Geofence where
  toJson g := .object [("name", toJson g.name), ("kind", toJson g.kind), ("area", g.area)]
  ofJson? j := do
    let r ← j.record? ["name", "kind", "area"]
    return ⟨← r.required "name", ← r.required "kind", ← r.required "area"⟩

end Geofence

end ScanFleet
