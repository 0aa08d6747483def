import ScanFleet.Model.Sighting

set_option autoImplicit false

/-! # Encounter queues

A queue keeps sightings in the order of their keys: first by priority, then by sequence number.
Entries with one key keep the order in which they were inserted, and an encounter is queued at most
once. -/

namespace ScanFleet

/-- A sighting with its place in the order. -/
structure QueueEntry where
  sighting : Sighting
  priority : Nat
  sequence : Nat
  deriving DecidableEq, Inhabited

/-- Whether an entry may stand in front of another. -/
def QueueEntry.le (a b : QueueEntry) : Bool :=
  a.priority < b.priority || (a.priority = b.priority && a.sequence ≤ b.sequence)

/-- Sightings in the order of their keys. -/
abbrev EncounterQueue := List QueueEntry

namespace EncounterQueue

/-- Whether an encounter is queued. -/
def holds (queue : EncounterQueue) (encounter : String) : Bool :=
  queue.any fun entry => entry.sighting.encounter == encounter

/-- Puts an entry behind all that may stand in front of it. -/
def place (entry : QueueEntry) : EncounterQueue → EncounterQueue
  | [] => [entry]
  | first :: rest => if first.le entry then first :: place entry rest else entry :: first :: rest

/-- Inserts an entry, unless its encounter is queued; also whether it was inserted. -/
def insert (queue : EncounterQueue) (entry : QueueEntry) : Bool × EncounterQueue :=
  if queue.holds entry.sighting.encounter then (false, queue) else (true, place entry queue)

/-- Takes out an encounter, wherever it stands. -/
def remove (queue : EncounterQueue) (encounter : String) : Option QueueEntry × EncounterQueue :=
  (queue.find? fun entry => entry.sighting.encounter == encounter,
    queue.eraseP fun entry => entry.sighting.encounter == encounter)

/-- Takes out the first entry. -/
def popFront : EncounterQueue → Option QueueEntry × EncounterQueue
  | [] => (none, [])
  | first :: rest => (some first, rest)

/-- Keeps the first `limit` entries; also how many were dropped. -/
def truncate (queue : EncounterQueue) (limit : Nat) : Nat × EncounterQueue :=
  (queue.length - limit, queue.take limit)

/-- The entries whose creatures have not despawned. -/
def unexpired (queue : EncounterQueue) (now : Int) : EncounterQueue :=
  queue.filter fun entry => !entry.sighting.expired now

/-- Drops the entries whose creatures have despawned; also how many were dropped. -/
def removeExpired (queue : EncounterQueue) (now : Int) : Nat × EncounterQueue :=
  (queue.length - (queue.unexpired now).length, queue.unexpired now)

end EncounterQueue

end ScanFleet
