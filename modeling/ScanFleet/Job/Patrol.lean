import ScanFleet.Geo.Coordinate

set_option autoImplicit false

/-! # Patrols

A patrol hands out the places of a route one after another, whoever asks, and starts over after the
last one. It also remembers which devices are attached to it. -/

namespace ScanFleet

/-- A walk along a route. -/
structure Patrol where
  route : List Coordinate
  /-- How many places of the current lap have been handed out. -/
  cursor : Nat := 0
  /-- How many laps are complete; the count is one of 64 bits and starts over after the last number. -/
  laps : UInt64 := 0
  /-- The attached devices. -/
  crew : Table String := .empty
  stopped : Bool := false
  deriving DecidableEq, Inhabited

/-- One place handed out. -/
structure PatrolStep where
  place : Coordinate
  /-- Whether the place is the last one of the route. -/
  completesLap : Bool
  deriving DecidableEq, Inhabited

namespace Patrol

/-- The next place, unless the patrol is stopped or has no route. -/
def advance (p : Patrol) : Option PatrolStep × Patrol :=
  if p.stopped then (none, p)
  else
    match p.route[p.cursor]? with
    | none => (none, p)
    | some place =>
      if p.cursor + 1 = p.route.length then
        (some ⟨place, true⟩, { p with cursor := 0, laps := p.laps + 1 })
      else (some ⟨place, false⟩, { p with cursor := p.cursor + 1 })

/-- Starts over, also after a stop. -/
def reset (p : Patrol) : Patrol := { p with cursor := 0, laps := 0, stopped := false }

/-- Starts over on another route. The attached devices stay. -/
def rebuild (p : Patrol) (route : List Coordinate) : Patrol := reset { p with route }

/-- Hands out nothing more. -/
def stop (p : Patrol) : Patrol := { p with stopped := true }

/-- Attaches a device. -/
def attach (p : Patrol) (uuid : String) : Patrol := { p with crew := p.crew.insert uuid }

/-- Detaches a device. -/
def detach (p : Patrol) (uuid : String) : Patrol := { p with crew := p.crew.erase uuid }

/-! ## What handing out leaves alone -/

/-- Handing out a place moves the cursor and the laps, and nothing else. -/
theorem advance_eq (p : Patrol) :
    p.advance.2 = { p with cursor := p.advance.2.cursor, laps := p.advance.2.laps } := by
  rw [advance]
  split
  · rfl
  · split
    · rfl
    · split
      · rfl
      · rfl

@[simp] theorem route_advance (p : Patrol) : p.advance.2.route = p.route := by rw [advance_eq]

@[simp] theorem crew_advance (p : Patrol) : p.advance.2.crew = p.crew := by rw [advance_eq]

@[simp] theorem stopped_advance (p : Patrol) : p.advance.2.stopped = p.stopped := by
  rw [advance_eq]

end Patrol

end ScanFleet
