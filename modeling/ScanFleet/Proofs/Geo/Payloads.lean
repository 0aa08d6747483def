import Mathlib.Data.List.Forall2
import ScanFleet.Proofs.Geo.Decoding

set_option autoImplicit false

/-! # Which payloads decode

An area consists of parts: places for a route, polygons for a region (`Area.Part`). A payload is read
as a list of parts, each of them is looked at, and the parts of all payloads make the area, in order.
Areas of both shapes go by this one rule (`Area.decode_eq`), so what decodes and what is refused is told
once for both.

Payloads decode when each can be read, no part has a fault, and there is a part in all. Otherwise the
first payload with a fault is blamed, for the first of its parts that has one (`Area.Refusal`); payloads
without any parts are blamed together. Whether a stretch of the payloads adds parts does not depend on
the others, so stretches can be decoded one by one (`Area.Gives`). -/

namespace ScanFleet

/-- A finite place between the poles. -/
structure Coordinate.OnGlobe (c : Coordinate) : Prop where
  finite : c.lat.isFinite = true ∧ c.lon.isFinite = true
  lat : -90 ≤ c.lat ∧ c.lat ≤ 90
  lon : -180 ≤ c.lon ∧ c.lon ≤ 180

/-- The first element of a list that is not sound is to blame. -/
inductive FirstBlame {α : Type} (sound : α → Prop) (blame : α → AreaFault → Prop) :
    List α → AreaFault → Prop where
  | intro {before after : List α} {a : α} {fault : AreaFault} (hbefore : ∀ b ∈ before, sound b)
      (hblame : blame a fault) : FirstBlame sound blame (before ++ a :: after) fault

/-- A payload that is a list, whose items are read one by one. -/
inductive Lists {α : Type} (reads : Json → α → Prop) : Json → List α → Prop where
  | intro {items : List Json} {parts : List α} (hitems : List.Forall₂ reads items parts) :
      Lists reads (.list items) parts

namespace FirstBlame

variable {α : Type} {sound : α → Prop} {blame : α → AreaFault → Prop}

theorem cons_iff {a : α} {rest : List α} {fault : AreaFault} :
    FirstBlame sound blame (a :: rest) fault
      ↔ blame a fault ∨ sound a ∧ FirstBlame sound blame rest fault := by
  constructor
  · intro h
    generalize hall : a :: rest = all at h
    obtain ⟨hbefore, hblame⟩ := h
    rename_i before after b
    cases before with
    | nil =>
      obtain ⟨rfl, rfl⟩ := List.cons.inj hall
      exact .inl hblame
    | cons first others =>
      obtain ⟨rfl, rfl⟩ := List.cons.inj hall
      exact .inr ⟨hbefore a List.mem_cons_self,
        .intro (fun b hb => hbefore b (List.mem_cons_of_mem a hb)) hblame⟩
  · rintro (hblame | ⟨hsound, hbefore, hblame⟩)
    · have hnone : ∀ b ∈ ([] : List α), sound b := List.forall_mem_nil sound
      exact FirstBlame.intro hnone hblame
    · rename_i before after b
      have hall : ∀ b ∈ a :: before, sound b := List.forall_mem_cons.2 ⟨hsound, hbefore⟩
      exact FirstBlame.intro hall hblame

theorem not_nil {fault : AreaFault} : ¬ FirstBlame sound blame [] fault := by
  intro h
  generalize hall : [] = all at h
  obtain ⟨-, -⟩ := h
  exact absurd hall.symm (by simp)

theorem exists_blame {l : List α} {fault : AreaFault} (h : FirstBlame sound blame l fault) :
    ∃ a ∈ l, blame a fault := by
  obtain ⟨-, hblame⟩ := h
  exact ⟨_, List.mem_append_right _ List.mem_cons_self, hblame⟩

end FirstBlame

namespace Area

/-! ## Parts -/

/-- What areas of a shape consist of. -/
def Part : Shape → Type
  | .points => Coordinate
  | .polygons => Polygon

/-- The area of the given parts. -/
def ofParts : (shape : Shape) → List (Part shape) → Area
  | .points, places => .points places
  | .polygons, shapes => .polygons shapes

theorem ofParts_inj {shape : Shape} {parts others : List (Part shape)} :
    ofParts shape parts = ofParts shape others ↔ parts = others := by
  cases shape with
  | points => exact Area.points.injEq parts others ▸ Iff.rfl
  | polygons => exact Area.polygons.injEq parts others ▸ Iff.rfl

/-- An item is a coordinate. -/
def ReadsPlace (item : Json) (place : Coordinate) : Prop := ofJson? item = some place

/-- A payload is a list of coordinates, or a list of lists of coordinates. -/
def Reads : (shape : Shape) → Json → List (Part shape) → Prop
  | .points => Lists ReadsPlace
  | .polygons => Lists (Lists ReadsPlace)

/-- A polygon of at least three vertices, all of them on the globe. -/
structure SoundPolygon (polygon : Polygon) : Prop where
  length : 3 ≤ polygon.length
  vertices : ∀ vertex ∈ polygon, vertex.OnGlobe

/-- A place on the globe, or a polygon of such places. -/
def Sound : (shape : Shape) → Part shape → Prop
  | .points => Coordinate.OnGlobe
  | .polygons => SoundPolygon

/-- A payload contributes parts: they are what is read from it, and all of them are sound. -/
def Contributes (shape : Shape) (payload : Json) (parts : List (Part shape)) : Prop :=
  Reads shape payload parts ∧ ∀ part ∈ parts, Sound shape part

/-! ## Faults -/

/-- What a place is blamed for. -/
inductive PlaceBlame (place : Coordinate) : AreaFault → Prop where
  | nonFinite (h : ¬ (place.lat.isFinite = true ∧ place.lon.isFinite = true)) :
      PlaceBlame place (.nonFinite place)
  | outOfRange (hfinite : place.lat.isFinite = true ∧ place.lon.isFinite = true)
      (h : ¬ place.OnGlobe) : PlaceBlame place (.outOfRange place)

/-- What a polygon is blamed for: that it has few vertices, or else its first vertex off the globe. -/
inductive PolygonBlame (polygon : Polygon) : AreaFault → Prop where
  | fewVertices (h : polygon.length < 3) : PolygonBlame polygon (.fewVertices polygon.length)
  | vertex {fault : AreaFault} (hlength : 3 ≤ polygon.length)
      (h : FirstBlame Coordinate.OnGlobe PlaceBlame polygon fault) : PolygonBlame polygon fault

/-- What a part is blamed for. -/
def PartBlame : (shape : Shape) → Part shape → AreaFault → Prop
  | .points => PlaceBlame
  | .polygons => PolygonBlame

/-- A payload of another form. -/
def unreadable : Shape → Json → AreaFault
  | .points => .notCoordinates
  | .polygons => .notPolygons

/-- Payloads without parts. -/
def noParts : Shape → AreaFault
  | .points => .noPoints
  | .polygons => .noPolygons

/-- What a payload is blamed for: its form, or else its first part that is not sound. -/
inductive PayloadBlame (shape : Shape) (payload : Json) : AreaFault → Prop where
  | form (h : ∀ parts, ¬ Reads shape payload parts) :
      PayloadBlame shape payload (unreadable shape payload)
  | part {parts : List (Part shape)} {fault : AreaFault} (hreads : Reads shape payload parts)
      (h : FirstBlame (Sound shape) (PartBlame shape) parts fault) : PayloadBlame shape payload fault

/-- Why payloads are refused. -/
inductive Refusal (shape : Shape) : List Json → AreaFault → Prop where
  | noPayload : Refusal shape [] .noPayload
  | payload {payloads : List Json} {fault : AreaFault}
      (h : FirstBlame (fun payload => ∃ parts, Contributes shape payload parts) (PayloadBlame shape)
        payloads fault) : Refusal shape payloads fault
  | noParts {payloads : List Json} (hsome : payloads ≠ [])
      (h : ∀ payload ∈ payloads, Contributes shape payload []) : Refusal shape payloads (noParts shape)

section Blame

variable {shape : Shape} {fault : AreaFault}

/-- Nothing that is looked at is blamed for what is missing. -/
theorem PlaceBlame.ne {place : Coordinate} (h : PlaceBlame place fault) :
    fault ≠ .noPayload ∧ fault ≠ noParts shape := by
  cases shape <;> cases h <;> simp [noParts]

theorem PartBlame.ne {part : Part shape} (h : PartBlame shape part fault) :
    fault ≠ .noPayload ∧ fault ≠ noParts shape := by
  cases shape with
  | points => exact PlaceBlame.ne h
  | polygons =>
    obtain hfew | ⟨hlength, hfirst⟩ := h
    · exact ⟨nofun, nofun⟩
    · obtain ⟨vertex, -, hvertex⟩ := hfirst.exists_blame
      exact hvertex.ne

theorem PayloadBlame.ne {payload : Json} (h : PayloadBlame shape payload fault) :
    fault ≠ .noPayload ∧ fault ≠ noParts shape := by
  obtain hform | ⟨hreads, hfirst⟩ := h
  · cases shape <;> exact ⟨nofun, nofun⟩
  · obtain ⟨part, -, hpart⟩ := hfirst.exists_blame
    exact PartBlame.ne hpart

end Blame

/-! ## Reading -/

section Reading

variable {α : Type}

theorem mapM_eq_some_iff {read? : Json → Option α} {items : List Json} {parts : List α} :
    items.mapM read? = some parts
      ↔ List.Forall₂ (fun item part => read? item = some part) items parts := by
  induction items generalizing parts with
  | nil =>
    rw [List.mapM_nil, List.forall₂_nil_left_iff]
    exact Option.some_inj.trans eq_comm
  | cons item rest ih =>
    rw [List.mapM_cons, List.forall₂_cons_left_iff]
    simp only [bind, Option.bind_eq_some_iff, ih]
    constructor
    · rintro ⟨part, hpart, others, hothers, heq⟩
      exact ⟨part, others, hpart, hothers, (Option.some.inj heq).symm⟩
    · rintro ⟨part, others, hpart, hothers, rfl⟩
      exact ⟨part, hpart, others, hothers, rfl⟩

theorem lists_iff [JsonForm α] {reads : Json → α → Prop}
    (hreads : ∀ item a, reads item a ↔ ofJson? item = some a) {payload : Json} {parts : List α} :
    Lists reads payload parts ↔ ofJson? payload = some parts := by
  constructor
  · rintro ⟨hitems⟩
    exact mapM_eq_some_iff.2 (hitems.imp fun item a => (hreads item a).1)
  · intro h
    obtain ⟨items, rfl, -⟩ := exists_item_of_ofJson? h
    exact .intro ((mapM_eq_some_iff.1 h).imp fun item a => (hreads item a).2)

end Reading

instance : (shape : Shape) → JsonForm (Part shape)
  | .points => inferInstanceAs (JsonForm Coordinate)
  | .polygons => inferInstanceAs (JsonForm (List Coordinate))

theorem reads_iff {shape : Shape} {payload : Json} {parts : List (Part shape)} :
    Reads shape payload parts ↔ ofJson? payload = some parts := by
  cases shape with
  | points => exact lists_iff (α := Coordinate) fun _ _ => Iff.rfl
  | polygons => exact lists_iff (α := List Coordinate) fun _ _ => lists_iff fun _ _ => Iff.rfl

/-! ## Checking -/

theorem isFinite_iff {place : Coordinate} :
    place.isFinite = true ↔ place.lat.isFinite = true ∧ place.lon.isFinite = true := by
  rw [Coordinate.isFinite, Bool.and_eq_true]

theorem onGlobe_iff {place : Coordinate} :
    place.OnGlobe ↔ place.isFinite = true ∧ place.inRange = true := by
  rw [isFinite_iff]
  simp only [Coordinate.inRange, Bool.and_eq_true, decide_eq_true_eq]
  constructor
  · rintro ⟨hfinite, ⟨hsouth, hnorth⟩, hwest, heast⟩
    exact ⟨hfinite, ⟨⟨hsouth, hnorth⟩, hwest⟩, heast⟩
  · rintro ⟨hfinite, ⟨⟨hsouth, hnorth⟩, hwest⟩, heast⟩
    exact ⟨hfinite, ⟨hsouth, hnorth⟩, hwest, heast⟩

theorem placeFault?_eq_none_iff {place : Coordinate} :
    placeFault? place = none ↔ place.OnGlobe := by
  rw [onGlobe_iff]
  constructor
  · exact inRange_of_placeFault?
  · rintro ⟨hfinite, hrange⟩
    simp [placeFault?, hfinite, hrange]

theorem placeFault?_eq_some_iff {place : Coordinate} {fault : AreaFault} :
    placeFault? place = some fault ↔ PlaceBlame place fault := by
  constructor
  · intro h
    unfold placeFault? at h
    split at h
    · rename_i hnot
      obtain rfl := Option.some.inj h
      exact .nonFinite fun hfinite => hnot (isFinite_iff.2 hfinite)
    · rename_i hfinite
      split at h
      · rename_i hnot
        obtain rfl := Option.some.inj h
        exact .outOfRange (isFinite_iff.1 (Classical.not_not.1 hfinite))
          fun hglobe => hnot (onGlobe_iff.1 hglobe).2
      · cases h
  · intro h
    cases h with
    | nonFinite h =>
      have hnot : ¬ place.isFinite = true := fun hfinite => h (isFinite_iff.1 hfinite)
      rw [placeFault?, if_pos hnot]
    | outOfRange hfinite h =>
      have hfinite := isFinite_iff.2 hfinite
      have hnot : ¬ place.inRange = true := fun hrange => h (onGlobe_iff.2 ⟨hfinite, hrange⟩)
      rw [placeFault?, if_neg (not_not_intro hfinite), if_pos hnot]

section Checking

variable {α : Type} {fault? : α → Option AreaFault} {sound : α → Prop} {blame : α → AreaFault → Prop}

/-- The first fault that is found in a list is that of the first element to blame. -/
theorem findSome?_eq_some_iff (hsound : ∀ a, fault? a = none ↔ sound a)
    (hblame : ∀ a fault, fault? a = some fault ↔ blame a fault) {l : List α} {fault : AreaFault} :
    l.findSome? fault? = some fault ↔ FirstBlame sound blame l fault := by
  rw [List.findSome?_eq_some_iff]
  constructor
  · rintro ⟨before, a, after, rfl, ha, hbefore⟩
    exact .intro (fun b hb => (hsound b).1 (hbefore b hb)) ((hblame a fault).1 ha)
  · rintro ⟨hbefore, ha⟩
    exact ⟨_, _, _, rfl, (hblame _ fault).2 ha, fun b hb => (hsound b).2 (hbefore b hb)⟩

end Checking

theorem polygonFault?_eq_none_iff {polygon : Polygon} :
    polygonFault? polygon = none ↔ SoundPolygon polygon := by
  constructor
  · intro h
    obtain ⟨hlength, hvertices⟩ := of_polygonFault? h
    exact ⟨hlength, fun vertex hvertex => placeFault?_eq_none_iff.1 (hvertices vertex hvertex)⟩
  · rintro ⟨hlength, hvertices⟩
    rw [polygonFault?, if_neg (Nat.not_lt.2 hlength), List.findSome?_eq_none_iff]
    exact fun vertex hvertex => placeFault?_eq_none_iff.2 (hvertices vertex hvertex)

theorem polygonFault?_eq_some_iff {polygon : Polygon} {fault : AreaFault} :
    polygonFault? polygon = some fault ↔ PolygonBlame polygon fault := by
  have hvertices : polygon.findSome? placeFault? = some fault
      ↔ FirstBlame Coordinate.OnGlobe PlaceBlame polygon fault :=
    findSome?_eq_some_iff (fun _ => placeFault?_eq_none_iff) fun _ _ => placeFault?_eq_some_iff
  constructor
  · intro h
    unfold polygonFault? at h
    split at h
    · rename_i hfew
      obtain rfl := Option.some.inj h
      exact .fewVertices hfew
    · rename_i hlength
      exact .vertex (Nat.not_lt.1 hlength) (hvertices.1 h)
  · intro h
    cases h with
    | fewVertices hfew => rw [polygonFault?, if_pos hfew]
    | vertex hlength hfirst =>
      rw [polygonFault?, if_neg (Nat.not_lt.2 hlength), hvertices.2 hfirst]

/-- The fault of a part. -/
def partFault? : (shape : Shape) → Part shape → Option AreaFault
  | .points => placeFault?
  | .polygons => polygonFault?

theorem partFault?_eq_none_iff {shape : Shape} {part : Part shape} :
    partFault? shape part = none ↔ Sound shape part := by
  cases shape with
  | points => exact placeFault?_eq_none_iff
  | polygons => exact polygonFault?_eq_none_iff

theorem partFault?_eq_some_iff {shape : Shape} {part : Part shape} {fault : AreaFault} :
    partFault? shape part = some fault ↔ PartBlame shape part fault := by
  cases shape with
  | points => exact placeFault?_eq_some_iff
  | polygons => exact polygonFault?_eq_some_iff

/-! ## One payload -/

section OnePayload

variable {shape : Shape} {payload : Json} {parts : List (Part shape)} {fault : AreaFault}

theorem parts_eq_ok_iff :
    Area.parts (unreadable shape) (partFault? shape) payload = .ok parts
      ↔ Contributes shape payload parts := by
  have hsound : (∀ part ∈ parts, Sound shape part) ↔ parts.findSome? (partFault? shape) = none := by
    simp only [List.findSome?_eq_none_iff, partFault?_eq_none_iff]
  rw [Contributes, reads_iff, hsound, Area.parts]
  constructor
  · intro h
    split at h
    · cases h
    · rename_i read hread
      split at h
      · cases h
      · rename_i hnone
        obtain rfl := Except.ok.inj h
        exact ⟨hread, hnone⟩
  · rintro ⟨hread, hnone⟩
    rw [hread]
    dsimp only
    rw [hnone]

theorem parts_eq_error_iff :
    Area.parts (unreadable shape) (partFault? shape) payload = .error fault
      ↔ PayloadBlame shape payload fault := by
  have hfirst : ∀ {parts : List (Part shape)}, parts.findSome? (partFault? shape) = some fault
      ↔ FirstBlame (Sound shape) (PartBlame shape) parts fault :=
    findSome?_eq_some_iff (fun _ => partFault?_eq_none_iff) fun _ _ => partFault?_eq_some_iff
  rw [Area.parts]
  constructor
  · intro h
    split at h
    · rename_i hnone
      obtain rfl := Except.error.inj h
      refine .form fun parts hreads => ?_
      rw [reads_iff.1 hreads] at hnone
      cases hnone
    · rename_i read hread
      split at h
      · rename_i found hfound
        obtain rfl := Except.error.inj h
        exact .part (reads_iff.2 hread) (hfirst.1 hfound)
      · cases h
  · intro h
    cases h with
    | form hnot =>
      cases hread : (ofJson? payload : Option (List (Part shape))) with
      | none => rfl
      | some parts => exact absurd (reads_iff.2 hread) (hnot parts)
    | part hreads h =>
      rw [reads_iff.1 hreads]
      dsimp only
      rw [hfirst.2 h]

end OnePayload

/-! ## All payloads -/

section Groups

variable {α β : Type} {gives : α → List β → Prop} {all : List β}

theorem groups_nil_iff :
    (∃ groups, List.Forall₂ gives [] groups ∧ groups.flatten = all) ↔ [] = all := by
  simp only [List.forall₂_nil_left_iff, exists_eq_left, List.flatten_nil]

theorem groups_cons_iff {a : α} {rest : List α} :
    (∃ groups, List.Forall₂ gives (a :: rest) groups ∧ groups.flatten = all)
      ↔ ∃ first others, gives a first
          ∧ (∃ groups, List.Forall₂ gives rest groups ∧ groups.flatten = others)
          ∧ first ++ others = all := by
  simp only [List.forall₂_cons_left_iff]
  constructor
  · rintro ⟨-, ⟨first, groups, hfirst, hgroups, rfl⟩, rfl⟩
    exact ⟨first, groups.flatten, hfirst, ⟨groups, hgroups, rfl⟩, rfl⟩
  · rintro ⟨first, -, hfirst, ⟨groups, hgroups, rfl⟩, rfl⟩
    exact ⟨first :: groups, ⟨first, groups, hfirst, hgroups, rfl⟩, rfl⟩

end Groups

section Stretches

variable {α : Type} [JsonForm α] {unreadable : Json → AreaFault} {fault? : α → Option AreaFault}
  {parts : List α} {fault : AreaFault}

theorem allParts_cons_eq_ok_iff {payload : Json} {rest : List Json} :
    allParts unreadable fault? (payload :: rest) = .ok parts
      ↔ ∃ first others, Area.parts unreadable fault? payload = .ok first
          ∧ allParts unreadable fault? rest = .ok others ∧ first ++ others = parts := by
  rw [allParts]
  cases Area.parts unreadable fault? payload with
  | error fault => simp
  | ok first =>
    cases allParts unreadable fault? rest with
    | error fault => simp
    | ok others => simp

theorem allParts_cons_eq_error_iff {payload : Json} {rest : List Json} :
    allParts unreadable fault? (payload :: rest) = .error fault
      ↔ Area.parts unreadable fault? payload = .error fault
          ∨ (∃ first, Area.parts unreadable fault? payload = .ok first)
            ∧ allParts unreadable fault? rest = .error fault := by
  rw [allParts]
  cases Area.parts unreadable fault? payload with
  | error fault => simp
  | ok first =>
    cases allParts unreadable fault? rest with
    | error fault => simp
    | ok others => simp

theorem allParts_append_eq_ok_iff {before after : List Json} :
    allParts unreadable fault? (before ++ after) = .ok parts
      ↔ ∃ first others, allParts unreadable fault? before = .ok first
          ∧ allParts unreadable fault? after = .ok others ∧ first ++ others = parts := by
  induction before generalizing parts with
  | nil =>
    constructor
    · exact fun h => ⟨[], parts, rfl, h, rfl⟩
    · rintro ⟨first, others, hfirst, hothers, rfl⟩
      obtain rfl : [] = first := Except.ok.inj hfirst
      exact hothers
  | cons payload rest ih =>
    simp only [List.cons_append, allParts_cons_eq_ok_iff, ih]
    constructor
    · rintro ⟨first, -, hfirst, ⟨second, others, hsecond, hothers, rfl⟩, rfl⟩
      exact ⟨first ++ second, others, ⟨first, second, hfirst, hsecond, rfl⟩, hothers,
        List.append_assoc first second others⟩
    · rintro ⟨-, others, ⟨first, second, hfirst, hsecond, rfl⟩, hothers, rfl⟩
      exact ⟨first, second ++ others, hfirst, ⟨second, others, hsecond, hothers, rfl⟩,
        (List.append_assoc first second others).symm⟩

/-- Stretches of payloads contribute one after another. -/
theorem allParts_flatten_eq_ok_iff {stretches : List (List Json)} :
    allParts unreadable fault? stretches.flatten = .ok parts
      ↔ ∃ groups, List.Forall₂ (fun stretch group => allParts unreadable fault? stretch = .ok group)
            stretches groups
          ∧ groups.flatten = parts := by
  induction stretches generalizing parts with
  | nil => exact ⟨fun h => groups_nil_iff.2 (Except.ok.inj h), fun h => groups_nil_iff.1 h ▸ rfl⟩
  | cons stretch rest ih =>
    rw [List.flatten_cons, allParts_append_eq_ok_iff, groups_cons_iff]
    simp only [ih]

end Stretches

section AllPayloads

variable {shape : Shape} {payloads : List Json} {parts : List (Part shape)} {fault : AreaFault}

theorem allParts_eq_ok_iff :
    allParts (unreadable shape) (partFault? shape) payloads = .ok parts
      ↔ ∃ groups, List.Forall₂ (Contributes shape) payloads groups ∧ groups.flatten = parts := by
  induction payloads generalizing parts with
  | nil => exact ⟨fun h => groups_nil_iff.2 (Except.ok.inj h), fun h => groups_nil_iff.1 h ▸ rfl⟩
  | cons payload rest ih =>
    rw [allParts_cons_eq_ok_iff, groups_cons_iff]
    simp only [parts_eq_ok_iff, ih]

theorem allParts_eq_error_iff :
    allParts (unreadable shape) (partFault? shape) payloads = .error fault
      ↔ FirstBlame (fun payload => ∃ parts, Contributes shape payload parts) (PayloadBlame shape)
          payloads fault := by
  induction payloads with
  | nil => exact ⟨fun h => (nomatch h), fun h => absurd h FirstBlame.not_nil⟩
  | cons payload rest ih =>
    simp only [allParts_cons_eq_error_iff, parts_eq_error_iff, parts_eq_ok_iff, ih,
      FirstBlame.cons_iff]

end AllPayloads

/-! ## Decoding -/

section Decoding

variable {shape : Shape} {payloads : List Json} {parts : List (Part shape)} {fault : AreaFault}
  {area : Area}

/-- Areas of both shapes are decoded alike. -/
theorem decode_eq (shape : Shape) (payloads : List Json) :
    decode shape payloads =
      if payloads.isEmpty then .error .noPayload
      else
        match allParts (unreadable shape) (partFault? shape) payloads with
        | .error fault => .error fault
        | .ok parts => if parts.isEmpty then .error (noParts shape) else .ok (ofParts shape parts) := by
  cases shape with
  | points =>
    cases h : allParts (unreadable .points) (partFault? .points) payloads with
    | error fault =>
      have h : allParts .notCoordinates placeFault? payloads = .error fault := h
      rw [decode, h]
    | ok places =>
      have h : allParts .notCoordinates placeFault? payloads = .ok places := h
      rw [decode, h]
      rfl
  | polygons =>
    cases h : allParts (unreadable .polygons) (partFault? .polygons) payloads with
    | error fault =>
      have h : allParts .notPolygons polygonFault? payloads = .error fault := h
      rw [decode, h]
    | ok polygons =>
      have h : allParts .notPolygons polygonFault? payloads = .ok polygons := h
      rw [decode, h]
      rfl

theorem decode_eq_ok_iff :
    decode shape payloads = .ok area
      ↔ ∃ parts, allParts (unreadable shape) (partFault? shape) payloads = .ok parts ∧ parts ≠ []
          ∧ area = ofParts shape parts := by
  rw [decode_eq]
  cases payloads with
  | nil => simp [allParts]
  | cons payload rest =>
    cases allParts (unreadable shape) (partFault? shape) (payload :: rest) with
    | error fault => simp
    | ok parts =>
      cases parts with
      | nil => simp
      | cons part others => simp [eq_comm]

theorem decode_eq_error_iff :
    decode shape payloads = .error fault
      ↔ payloads = [] ∧ fault = .noPayload
          ∨ allParts (unreadable shape) (partFault? shape) payloads = .error fault
          ∨ payloads ≠ [] ∧ allParts (unreadable shape) (partFault? shape) payloads = .ok []
            ∧ fault = noParts shape := by
  rw [decode_eq]
  cases payloads with
  | nil => simp [allParts, eq_comm]
  | cons payload rest =>
    cases allParts (unreadable shape) (partFault? shape) (payload :: rest) with
    | error fault => simp
    | ok parts =>
      cases parts with
      | nil => simp [eq_comm]
      | cons part others => simp

theorem allParts_eq_nil_iff :
    allParts (unreadable shape) (partFault? shape) payloads = .ok []
      ↔ ∀ payload ∈ payloads, Contributes shape payload [] := by
  induction payloads with
  | nil => exact ⟨fun _ => by simp, fun _ => rfl⟩
  | cons payload rest ih =>
    rw [allParts_cons_eq_ok_iff, List.forall_mem_cons, ← ih, ← parts_eq_ok_iff]
    constructor
    · rintro ⟨first, others, hfirst, hothers, hnil⟩
      obtain ⟨rfl, rfl⟩ := List.append_eq_nil_iff.1 hnil
      exact ⟨hfirst, hothers⟩
    · rintro ⟨hfirst, hothers⟩
      exact ⟨[], [], hfirst, hothers, rfl⟩

theorem refusal_iff : Refusal shape payloads fault ↔ decode shape payloads = .error fault := by
  rw [decode_eq_error_iff, allParts_eq_error_iff, allParts_eq_nil_iff]
  constructor
  · rintro (_ | h | ⟨hsome, h⟩)
    · exact .inl ⟨rfl, rfl⟩
    · exact .inr (.inl h)
    · exact .inr (.inr ⟨hsome, h, rfl⟩)
  · rintro (⟨rfl, rfl⟩ | h | ⟨hsome, h, rfl⟩)
    · exact .noPayload
    · exact .payload h
    · exact .noParts hsome h

/-- What a stretch of payloads gives: the parts of the area it decodes to, or none when it has none. -/
def Gives (shape : Shape) (stretch : List Json) (parts : List (Part shape)) : Prop :=
  decode shape stretch = .ok (ofParts shape parts)
    ∨ parts = [] ∧ (decode shape stretch = .error .noPayload
        ∨ decode shape stretch = .error (noParts shape))

theorem ne_of_allParts (h : allParts (unreadable shape) (partFault? shape) payloads = .error fault) :
    fault ≠ .noPayload ∧ fault ≠ noParts shape := by
  obtain ⟨payload, -, hpayload⟩ := (allParts_eq_error_iff.1 h).exists_blame
  exact hpayload.ne

theorem allParts_eq_nil_of_decode (h : decode shape payloads = .error fault)
    (hfault : fault = .noPayload ∨ fault = noParts shape) :
    allParts (unreadable shape) (partFault? shape) payloads = .ok [] := by
  obtain ⟨rfl, -⟩ | h | ⟨-, h, -⟩ := decode_eq_error_iff.1 h
  · rfl
  · obtain ⟨hpayload, hparts⟩ := ne_of_allParts h
    exact absurd hfault (not_or.2 ⟨hpayload, hparts⟩)
  · exact h

theorem gives_iff :
    Gives shape payloads parts
      ↔ allParts (unreadable shape) (partFault? shape) payloads = .ok parts := by
  constructor
  · rintro (h | ⟨rfl, h | h⟩)
    · obtain ⟨found, hfound, -, hparts⟩ := decode_eq_ok_iff.1 h
      rwa [ofParts_inj.1 hparts]
    · exact allParts_eq_nil_of_decode h (.inl rfl)
    · exact allParts_eq_nil_of_decode h (.inr rfl)
  · intro h
    by_cases hparts : parts = []
    · subst hparts
      by_cases hpayloads : payloads = []
      · exact .inr ⟨rfl, .inl (decode_eq_error_iff.2 (.inl ⟨hpayloads, rfl⟩))⟩
      · exact .inr ⟨rfl, .inr (decode_eq_error_iff.2 (.inr (.inr ⟨hpayloads, h, rfl⟩)))⟩
    · exact .inl (decode_eq_ok_iff.2 ⟨parts, h, hparts, rfl⟩)

/-- Payloads decode just when each of them contributes its parts and there is a part in all: they are the
    area, in order. Otherwise the first that does not contribute is blamed. Stretches of them can be
    decoded on their own, and their parts be joined. A decoded area answers for every point. -/
theorem decode_exact (shape : Shape) (payloads : List Json) :
    (∀ area, decode shape payloads = .ok area
      ↔ payloads ≠ [] ∧ ∃ groups, List.Forall₂ (Contributes shape) payloads groups
          ∧ groups.flatten ≠ [] ∧ area = ofParts shape groups.flatten)
    ∧ (∀ fault, decode shape payloads = .error fault ↔ Refusal shape payloads fault)
    ∧ (∀ stretches : List (List Json), stretches.flatten = payloads →
        ∀ area, decode shape payloads = .ok area
          ↔ ∃ groups, List.Forall₂ (Gives shape) stretches groups ∧ groups.flatten ≠ []
              ∧ area = ofParts shape groups.flatten)
    ∧ ∀ area, decode shape payloads = .ok area →
        ∀ point, area.contains? point = some (area.contains point) := by
  refine ⟨fun area => ?_, fun fault => refusal_iff.symm, ?_, fun area => contains?_of_decode⟩
  · simp only [decode_eq_ok_iff, allParts_eq_ok_iff]
    constructor
    · rintro ⟨-, ⟨groups, hgroups, rfl⟩, hparts, harea⟩
      refine ⟨?_, groups, hgroups, hparts, harea⟩
      rintro rfl
      exact hparts (List.forall₂_nil_left_iff.1 hgroups ▸ rfl)
    · rintro ⟨-, groups, hgroups, hparts, harea⟩
      exact ⟨groups.flatten, ⟨groups, hgroups, rfl⟩, hparts, harea⟩
  · rintro stretches rfl area
    simp only [decode_eq_ok_iff, allParts_flatten_eq_ok_iff]
    constructor
    · rintro ⟨-, ⟨groups, hgroups, rfl⟩, hparts, harea⟩
      exact ⟨groups, hgroups.imp fun _ _ => gives_iff.2, hparts, harea⟩
    · rintro ⟨groups, hgroups, hparts, harea⟩
      exact ⟨groups.flatten, ⟨groups, hgroups.imp fun _ _ => gives_iff.1, rfl⟩, hparts, harea⟩

/-- A coordinate as it is written in a payload. -/
def mark (lat lon : Int) : Json := .object [("lat", .int lat), ("lon", .int lon)]

/-- A payload with one triangle. -/
def triangle : Json := .list [.list [mark 0 0, mark 0 4, mark 4 0]]

/-- A payload without polygons is allowed in front of a triangle, though on its own it does not decode.
    Of a route the first place off the globe is blamed, not the payload after it. -/
theorem decode_exact_triangle :
    (∃ area, decode .polygons [.list [], triangle] = .ok area
        ∧ decode .polygons [.list []] = .error .noPolygons
        ∧ decode .polygons [triangle] = .ok area
        ∧ area.contains? ⟨1, 1⟩ = some true)
      ∧ Refusal .points [.list [mark 1 2], .list [mark 3 4, mark 91 0], .null]
        (.outOfRange ⟨91, 0⟩) := by
  have hempty : decode .polygons [.list []] = .error .noPolygons := rfl
  have halone : decode .polygons [triangle] = .ok (.polygons [[⟨0, 0⟩, ⟨0, 4⟩, ⟨4, 0⟩]]) := rfl
  obtain ⟨-, -, hstretches, hanswers⟩ := decode_exact .polygons [.list [], triangle]
  have hboth : decode .polygons [.list [], triangle]
      = .ok (.polygons [[⟨0, 0⟩, ⟨0, 4⟩, ⟨4, 0⟩]]) :=
    (hstretches [[.list []], [triangle]] rfl _).2 ⟨[[], [[⟨0, 0⟩, ⟨0, 4⟩, ⟨4, 0⟩]]],
      .cons (.inr ⟨rfl, .inr hempty⟩) (.cons (.inl halone) .nil), nofun, rfl⟩
  refine ⟨⟨_, hboth, hempty, halone, ?_⟩, ?_⟩
  · exact (hanswers _ hboth ⟨1, 1⟩).trans (by decide)
  · exact ((decode_exact .points _).2.1 _).1 rfl

end Decoding

end Area

end ScanFleet
