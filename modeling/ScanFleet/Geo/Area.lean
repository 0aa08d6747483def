import ScanFleet.Geo.Coordinate

set_option autoImplicit false

/-! # Coverage areas

An area is a route of points or a list of polygons, decoded from one or more stored payloads. A
payload is read as a whole before its coordinates are checked, and the first payload that fails
decides the fault. A point lies in a polygon when the edges it crosses are odd in number. A polygon
without vertices cannot be asked, but no decoded area has one. -/

namespace ScanFleet

/-- What an area is made of. -/
inductive Shape where
  | points
  | polygons
  deriving DecidableEq, Repr

/-- A polygon as the list of its vertices; the last vertex precedes the first. -/
abbrev Polygon := List Coordinate

/-- A coverage area. -/
inductive Area where
  | points (places : List Coordinate)
  | polygons (shapes : List Polygon)
  deriving DecidableEq, Inhabited

/-- Why payloads are not an area. -/
inductive AreaFault where
  | noPayload
  /-- A payload that is no list of coordinates. -/
  | notCoordinates (payload : Json)
  /-- A payload that is no list of polygons. -/
  | notPolygons (payload : Json)
  | nonFinite (place : Coordinate)
  | outOfRange (place : Coordinate)
  | fewVertices (count : Nat)
  | noPoints
  | noPolygons

/-- The text of a fault, without what the reader of a payload has to say of it. -/
def AreaFault.text : AreaFault → String
  | .noPayload => "no geofence payload"
  | .notCoordinates _ => "expected list of coordinates"
  | .notPolygons _ => "expected list of polygons"
  | .nonFinite place => "non-finite coordinate " ++ place.text
  | .outOfRange place => "coordinate " ++ place.text ++ " out of range"
  | .fewVertices count => "polygon needs at least 3 vertices, got " ++ toString count
  | .noPoints => "route has no points"
  | .noPolygons => "area has no polygons"

namespace Area

/-! ## Decoding -/

/-- Why a coordinate is no place on the globe. -/
def placeFault? (c : Coordinate) : Option AreaFault :=
  if ¬ c.isFinite then some (.nonFinite c)
  else if ¬ c.inRange then some (.outOfRange c)
  else none

/-- Why a polygon is none. -/
def polygonFault? (polygon : Polygon) : Option AreaFault :=
  if polygon.length < 3 then some (.fewVertices polygon.length)
  else polygon.findSome? placeFault?

/-- The parts that one payload contributes: all of them, or the fault of the first that has one. -/
def parts {α : Type} [JsonForm α] (unreadable : Json → AreaFault) (fault? : α → Option AreaFault)
    (payload : Json) : Except AreaFault (List α) :=
  match (ofJson? payload : Option (List α)) with
  | none => .error (unreadable payload)
  | some parts =>
    match parts.findSome? fault? with
    | some fault => .error fault
    | none => .ok parts

/-- The parts of all payloads, in order. -/
def allParts {α : Type} [JsonForm α] (unreadable : Json → AreaFault)
    (fault? : α → Option AreaFault) :
    List Json → Except AreaFault (List α)
  | [] => .ok []
  | payload :: rest =>
    match parts unreadable fault? payload with
    | .error fault => .error fault
    | .ok first =>
      match allParts unreadable fault? rest with
      | .error fault => .error fault
      | .ok others => .ok (first ++ others)

/-- Decodes stored payloads into one area of the given shape. -/
def decode (shape : Shape) (payloads : List Json) : Except AreaFault Area :=
  if payloads.isEmpty then .error .noPayload
  else
    match shape with
    | .points =>
      match allParts .notCoordinates placeFault? payloads with
      | .error fault => .error fault
      | .ok places => if places.isEmpty then .error .noPoints else .ok (.points places)
    | .polygons =>
      match allParts .notPolygons polygonFault? payloads with
      | .error fault => .error fault
      | .ok shapes => if shapes.isEmpty then .error .noPolygons else .ok (.polygons shapes)

/-! ## Shape and route -/

/-- What the area is made of. -/
def shape : Area → Shape
  | .points _ => .points
  | .polygons _ => .polygons

/-- The places a device walks through, in order. -/
def route : Area → List Coordinate
  | .points places => places
  | .polygons shapes => shapes.flatten

/-! ## Containment -/

/-- Whether the ray from a point crosses the edge between two vertices: the latitude lies between theirs
    and the point lies to the west of the edge. -/
def crosses (point a b : Coordinate) : Bool :=
  (decide (a.lat > point.lat) != decide (b.lat > point.lat))
    && decide (point.lon < (b.lon - a.lon) * (point.lat - a.lat) / (b.lat - a.lat) + a.lon)

/-- Goes through the vertices after `previous` and turns the answer at every crossed edge. -/
def parityFrom (point previous : Coordinate) (inside : Bool) : List Coordinate → Bool
  | [] => inside
  | vertex :: rest => parityFrom point vertex (inside != crosses point vertex previous) rest

/-- Whether a point lies in a polygon. No point lies in a polygon without vertices. -/
def polygonContains (polygon : Polygon) (point : Coordinate) : Bool :=
  match polygon.getLast? with
  | some last => parityFrom point last false polygon
  | none => false

/-- Whether a point lies in one of the polygons. A route contains no point. -/
def contains : Area → Coordinate → Bool
  | .points _, _ => false
  | .polygons shapes, point => shapes.any fun polygon => polygonContains polygon point

/-- Asks polygons one after another, up to the first that contains the point. One without vertices gives
    no answer. -/
def askPolygons? (point : Coordinate) : List Polygon → Option Bool
  | [] => some false
  | polygon :: rest =>
    if polygon.isEmpty then none
    else if polygonContains polygon point then some true
    else askPolygons? point rest

/-- Whether the area contains a point, unless a polygon without vertices is asked. -/
def contains? : Area → Coordinate → Option Bool
  | .points _, _ => some false
  | .polygons shapes, point => askPolygons? point shapes

/-- Polygons that have vertices all give an answer. -/
theorem askPolygons?_eq {shapes : List Polygon} (h : ∀ polygon ∈ shapes, polygon ≠ [])
    (point : Coordinate) :
    askPolygons? point shapes = some (shapes.any fun polygon => polygonContains polygon point) := by
  induction shapes with
  | nil => rfl
  | cons polygon rest ih =>
    have hp : polygon.isEmpty = false := by simp [h polygon List.mem_cons_self]
    have hrest := ih fun q hq => h q (List.mem_cons_of_mem polygon hq)
    rw [askPolygons?, hp, hrest]
    cases hc : polygonContains polygon point with
    | true => simp [hc]
    | false => simp [hc]

/-! ## What decoding promises -/

/-- No part that a payload contributes has a fault. -/
theorem fault?_of_parts {α : Type} [JsonForm α] {unreadable : Json → AreaFault}
    {fault? : α → Option AreaFault} {payload : Json} {found : List α}
    (h : parts unreadable fault? payload = .ok found) : ∀ part ∈ found, fault? part = none := by
  rw [parts] at h
  split at h
  · simp at h
  · split at h
    · simp at h
    · rename_i hnone
      injection h with h
      rw [← h]
      exact List.findSome?_eq_none_iff.1 hnone

/-- No part of all payloads has a fault. -/
theorem fault?_of_allParts {α : Type} [JsonForm α] {unreadable : Json → AreaFault}
    {fault? : α → Option AreaFault} {payloads : List Json} {found : List α}
    (h : allParts unreadable fault? payloads = .ok found) :
    ∀ part ∈ found, fault? part = none := by
  induction payloads generalizing found with
  | nil =>
    injection h with h
    simp [← h]
  | cons payload rest ih =>
    rw [allParts] at h
    split at h
    · simp at h
    · rename_i first hfirst
      split at h
      · simp at h
      · rename_i others hothers
        injection h with h
        rw [← h]
        intro part hpart
        rcases List.mem_append.1 hpart with hpart | hpart
        · exact fault?_of_parts hfirst part hpart
        · exact ih hothers part hpart

/-- A decoded area answers for every point. -/
theorem contains?_of_decode {shape : Shape} {payloads : List Json} {area : Area}
    (h : decode shape payloads = .ok area) (point : Coordinate) :
    area.contains? point = some (area.contains point) := by
  cases shape with
  | points =>
    rw [decode] at h
    split at h
    · simp at h
    · split at h
      · simp at h
      · split at h
        · simp at h
        · injection h with h
          rw [← h]
          rfl
  | polygons =>
    rw [decode] at h
    split at h
    · simp at h
    · split at h
      · simp at h
      · rename_i shapes hshapes
        split at h
        · simp at h
        · injection h with h
          rw [← h]
          refine askPolygons?_eq (fun polygon hpolygon => ?_) point
          have hfault := fault?_of_allParts hshapes polygon hpolygon
          rintro rfl
          simp [polygonFault?] at hfault

end Area

end ScanFleet
