import ScanFleet.Geo.Area

set_option autoImplicit false

/-! # What a decoded area is made of

A payload marks the coordinates that are written in it (`Area.Marks`), as items of a list or of a list
of lists. Decoding invents none: the route of a decoded area goes through the marks of its payloads
only, and each of them is finite and in range. The route is never empty, and its shape is the one that
was asked for, so whoever needs an area of that shape can take it. -/

namespace ScanFleet

namespace Area

/-- A place is written in a payload: as one of its coordinates, or as a vertex of one of its polygons. -/
inductive Marks : Shape → Json → Coordinate → Prop where
  | point {items : List Json} {item : Json} {place : Coordinate} (hitem : item ∈ items)
      (hplace : ofJson? item = some place) : Marks .points (.list items) place
  | vertex {polygons vertices : List Json} {vertex : Json} {place : Coordinate}
      (hpolygon : .list vertices ∈ polygons) (hvertex : vertex ∈ vertices)
      (hplace : ofJson? vertex = some place) : Marks .polygons (.list polygons) place

/-! ## Reading -/

section Reading

variable {α : Type}

/-- Of a list that is read item by item every part comes from an item. -/
theorem exists_item_of_mapM {read? : Json → Option α} {items : List Json} {parts : List α}
    (h : items.mapM read? = some parts) : ∀ part ∈ parts, ∃ item ∈ items, read? item = some part := by
  induction items generalizing parts with
  | nil =>
    obtain rfl : [] = parts := Option.some.inj h
    exact fun part hpart => absurd hpart List.not_mem_nil
  | cons first rest ih =>
    rw [List.mapM_cons] at h
    obtain ⟨a, ha, h⟩ := Option.bind_eq_some_iff.1 h
    obtain ⟨others, hothers, h⟩ := Option.bind_eq_some_iff.1 h
    obtain rfl : a :: others = parts := Option.some.inj h
    intro part hpart
    rcases List.mem_cons.1 hpart with rfl | hpart
    · exact ⟨first, List.mem_cons_self, ha⟩
    · obtain ⟨item, hitem, hread⟩ := ih hothers part hpart
      exact ⟨item, List.mem_cons_of_mem first hitem, hread⟩

variable [JsonForm α]

/-- Only a list is read as a list, and every part of it is read from an item. -/
theorem exists_item_of_ofJson? {payload : Json} {parts : List α} (h : ofJson? payload = some parts) :
    ∃ items, payload = .list items ∧ ∀ part ∈ parts, ∃ item ∈ items, ofJson? item = some part := by
  cases payload with
  | list items => exact ⟨items, rfl, exists_item_of_mapM h⟩
  | null => cases h
  | bool b => cases h
  | int n => cases h
  | float x => cases h
  | text s => cases h
  | object members => cases h
  | void => cases h

variable {unreadable : Json → AreaFault} {fault? : α → Option AreaFault}

theorem ofJson?_of_parts {payload : Json} {found : List α}
    (h : parts unreadable fault? payload = .ok found) : ofJson? payload = some found := by
  unfold parts at h
  split at h
  · cases h
  · rename_i read hread
    split at h
    · cases h
    · rw [hread, Except.ok.inj h]

/-- Every part of all payloads is read from an item of one of them. -/
theorem exists_payload_of_allParts {payloads : List Json} {found : List α}
    (h : allParts unreadable fault? payloads = .ok found) :
    ∀ part ∈ found, ∃ items, .list items ∈ payloads ∧ ∃ item ∈ items, ofJson? item = some part := by
  induction payloads generalizing found with
  | nil =>
    obtain rfl : [] = found := Except.ok.inj h
    exact fun part hpart => absurd hpart List.not_mem_nil
  | cons payload rest ih =>
    unfold allParts at h
    split at h
    · cases h
    · rename_i first hfirst
      split at h
      · cases h
      · rename_i others hothers
        obtain rfl : first ++ others = found := Except.ok.inj h
        intro part hpart
        rcases List.mem_append.1 hpart with hpart | hpart
        · obtain ⟨items, rfl, hitems⟩ := exists_item_of_ofJson? (ofJson?_of_parts hfirst)
          exact ⟨items, List.mem_cons_self, hitems part hpart⟩
        · obtain ⟨items, hitems, hitem⟩ := ih hothers part hpart
          exact ⟨items, List.mem_cons_of_mem payload hitems, hitem⟩

end Reading

/-! ## Faults -/

theorem inRange_of_placeFault? {place : Coordinate} (h : placeFault? place = none) :
    place.isFinite = true ∧ place.inRange = true := by
  unfold placeFault? at h
  split at h
  · cases h
  · rename_i hfinite
    split at h
    · cases h
    · rename_i hrange
      exact ⟨Classical.not_not.1 hfinite, Classical.not_not.1 hrange⟩

theorem of_polygonFault? {polygon : Polygon} (h : polygonFault? polygon = none) :
    3 ≤ polygon.length ∧ ∀ place ∈ polygon, placeFault? place = none := by
  unfold polygonFault? at h
  split at h
  · cases h
  · rename_i hlength
    exact ⟨Nat.le_of_not_lt hlength, List.findSome?_eq_none_iff.1 h⟩

/-! ## Decoded areas -/

/-- A decoded area has the shape that was asked for and consists of parts of the payloads. -/
theorem decode_cases {shape : Shape} {payloads : List Json} {area : Area}
    (h : decode shape payloads = .ok area) :
    (∃ places, shape = .points ∧ area = .points places ∧ places ≠ []
        ∧ allParts .notCoordinates placeFault? payloads = .ok places)
      ∨ ∃ polygons, shape = .polygons ∧ area = .polygons polygons ∧ polygons ≠ []
        ∧ allParts .notPolygons polygonFault? payloads = .ok polygons := by
  unfold decode at h
  split at h
  · cases h
  · cases shape with
    | points =>
      dsimp only at h
      split at h
      · cases h
      · rename_i places hplaces
        split at h
        · cases h
        · rename_i hsome
          have hne : places ≠ [] := fun hempty => hsome (List.isEmpty_iff.2 hempty)
          exact .inl ⟨places, rfl, (Except.ok.inj h).symm, hne, hplaces⟩
    | polygons =>
      dsimp only at h
      split at h
      · cases h
      · rename_i polygons hpolygons
        split at h
        · cases h
        · rename_i hsome
          have hne : polygons ≠ [] := fun hempty => hsome (List.isEmpty_iff.2 hempty)
          exact .inr ⟨polygons, rfl, (Except.ok.inj h).symm, hne, hpolygons⟩

section Decoded

variable {shape : Shape} {payloads : List Json} {area : Area}

theorem shape_of_decode (h : decode shape payloads = .ok area) : area.shape = shape := by
  obtain ⟨places, rfl, rfl, -, -⟩ | ⟨polygons, rfl, rfl, -, -⟩ := decode_cases h
  · rfl
  · rfl

/-- A decoded area has places to go to, since a polygon has at least three vertices. -/
theorem route_ne_nil_of_decode (h : decode shape payloads = .ok area) : area.route ≠ [] := by
  obtain ⟨places, rfl, rfl, hsome, -⟩ | ⟨polygons, rfl, rfl, hsome, hparts⟩ := decode_cases h
  · exact hsome
  · intro hempty
    obtain ⟨polygon, hpolygon⟩ := List.exists_mem_of_ne_nil polygons hsome
    obtain ⟨hlength, -⟩ := of_polygonFault? (fault?_of_allParts hparts polygon hpolygon)
    obtain rfl : polygon = [] := List.flatten_eq_nil_iff.1 hempty polygon hpolygon
    exact absurd hlength (by decide)

/-- The route of a decoded area goes through places that a payload marks, and none of them is off the
    globe. -/
theorem marks_of_mem_route (h : decode shape payloads = .ok area) {place : Coordinate}
    (hplace : place ∈ area.route) :
    (∃ payload ∈ payloads, Marks shape payload place) ∧ place.isFinite = true
      ∧ place.inRange = true := by
  obtain ⟨places, rfl, rfl, -, hparts⟩ | ⟨polygons, rfl, rfl, -, hparts⟩ := decode_cases h
  · refine ⟨?_, inRange_of_placeFault? (fault?_of_allParts hparts place hplace)⟩
    obtain ⟨items, hpayload, item, hitem, hread⟩ := exists_payload_of_allParts hparts place hplace
    exact ⟨_, hpayload, .point hitem hread⟩
  · obtain ⟨polygon, hpolygon, hvertex⟩ := List.mem_flatten.1 hplace
    obtain ⟨-, hfaults⟩ := of_polygonFault? (fault?_of_allParts hparts polygon hpolygon)
    refine ⟨?_, inRange_of_placeFault? (hfaults place hvertex)⟩
    obtain ⟨items, hpayload, item, hitem, hread⟩ := exists_payload_of_allParts hparts polygon hpolygon
    obtain ⟨vertices, rfl, hvertices⟩ := exists_item_of_ofJson? hread
    obtain ⟨vertex, hmem, hread⟩ := hvertices place hvertex
    exact ⟨_, hpayload, .vertex hitem hmem hread⟩

end Decoded

end Area

end ScanFleet
