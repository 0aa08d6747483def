import ScanFleet.Geo.Area
import ScanFleet.Iv.Store
import ScanFleet.Model.Task

set_option autoImplicit false

/-! # IV desks

A desk decides which sightings are worth a check of their individual values. It admits listed
species inside its area into a bounded queue, the better ranked ones first, and counts the checks
that come in. -/

namespace ScanFleet

/-- What became of a sighting. -/
inductive Admission where
  | queued
  | notListed
  | outsideArea
  | alreadyChecked
  | expired
  | duplicate
  /-- Queued, and at once displaced by entries that go before it. -/
  | truncated
  deriving DecidableEq, Repr, Inhabited

/-- The rules of admission and the number of the next entry. -/
structure IvDesk where
  list : IvList
  area : Area
  /-- How many encounters may be queued. -/
  limit : Nat
  sequence : Nat := 0
  deriving Inhabited

namespace IvDesk

/-- Why a sighting is turned away, or its rank. The list is asked first, the clock last. -/
def screen (d : IvDesk) (s : Sighting) (now : Int) : Except Admission Nat :=
  match d.list.rank? s.species with
  | none => .error .notListed
  | some rank =>
    if s.iv.isSome then .error .alreadyChecked
    else if !d.area.contains s.place then .error .outsideArea
    else if s.expired now then .error .expired
    else .ok rank

/-- Whether only the clock can still turn a sighting away. -/
def eligible (d : IvDesk) (s : Sighting) : Bool :=
  (d.list.rank? s.species).isSome && s.iv.isNone && d.area.contains s.place

/-- Drops the entries of the queue past the limit and tells whether the newest encounter stayed. -/
def settle (d : IvDesk) (encounter : String) (store : EncounterStore) :
    Except JobError Admission × EncounterStore :=
  match store.truncate d.limit with
  | .error error => (.error error, store)
  | .ok (dropped, store) =>
    if dropped = 0 then (.ok .queued, store)
    else
      match store.snapshot with
      | .error error => (.error error, store)
      | .ok queue => (.ok (if queue.holds encounter then .queued else .truncated), store)

/-- Queues a sighting of the given rank. A number is used up also when the encounter is queued already.
    -/
def enqueue (d : IvDesk) (store : EncounterStore) (s : Sighting) (rank : Nat) :
    Except JobError Admission × IvDesk × EncounterStore :=
  let numbered := { d with sequence := d.sequence + 1 }
  match store.insert ⟨s, rank, d.sequence⟩ with
  | .error error => (.error error, numbered, store)
  | .ok (false, store) => (.ok .duplicate, numbered, store)
  | .ok (true, store) =>
    let (answer, store) := d.settle s.encounter store
    (answer, numbered, store)

/-- Admits a sighting, or tells why not. -/
def consider (d : IvDesk) (store : EncounterStore) (s : Sighting) (now : Instant) :
    Except JobError Admission × IvDesk × EncounterStore :=
  match d.screen s now.seconds with
  | .error admission => (.ok admission, d, store)
  | .ok rank =>
    match store.removeExpired now.seconds with
    | .error error => (.error error, d, store)
    | .ok (_, store) => d.enqueue store s rank

/-- Takes a checked encounter out of the queue and counts the check, when it lies inside the area;
    answers whether it was queued. -/
def recordIv (d : IvDesk) (store : EncounterStore) (s : Sighting) (now : Instant) :
    Except JobError Bool × EncounterStore :=
  if !d.area.contains s.place then (.ok false, store)
  else
    match store.remove s.encounter with
    | .error error => (.error error, store)
    | .ok (removed, store) =>
      match store.recordCheck now with
      | .error error => (.error error, store)
      | .ok (_, store) => (.ok removed.isSome, store)

/-- Whether recording a checked encounter comes to the point of counting the check. -/
def counts (d : IvDesk) (store : EncounterStore) (s : Sighting) : Bool :=
  d.area.contains s.place && (store.remove s.encounter).isOk

/-- Takes out the first encounter that has not despawned. -/
def next (store : EncounterStore) (now : Instant) :
    Except JobError (Option Sighting) × EncounterStore :=
  match store.removeExpired now.seconds with
  | .error error => (.error error, store)
  | .ok (_, store) =>
    match store.popFront with
    | .error error => (.error error, store)
    | .ok (first, store) => (.ok (first.map (·.sighting)), store)

/-- The queued sightings. -/
def queue (store : EncounterStore) : Except JobError (List Sighting) :=
  store.snapshot.map fun queue => queue.map (·.sighting)

/-- The number of checks within the last hour. -/
def checksPerHour (store : EncounterStore) (now : Instant) : EncounterStore.Outcome Nat :=
  store.checksSince (now.later (-3600))

/-! ## Errors absorbed

A job goes on working while its store is down: it queues nothing, hands out nothing and shows the
error in its status. -/

/-- Admits a sighting, if the store works. -/
def offer (d : IvDesk) (store : EncounterStore) (s : Sighting) (now : Instant) :
    IvDesk × EncounterStore :=
  (d.consider store s now).2

/-- Counts a check, if the store works. -/
def note (d : IvDesk) (store : EncounterStore) (s : Sighting) (now : Instant) : EncounterStore :=
  (d.recordIv store s now).2

/-- The task of checking the next encounter, if there is one and the store works. -/
def nextTask (store : EncounterStore) (minLevel maxLevel : UInt8) (now : Instant) :
    Option Task × EncounterStore :=
  match next store now with
  | (.ok (some s), store) =>
    (some (.checkIv s.place s.encounter s.species minLevel maxLevel), store)
  | (_, store) => (none, store)

/-- The queued sightings; none when the store is down. -/
def queueOrEmpty (store : EncounterStore) : List Sighting := (queue store).toOption.getD []

/-- Queue length, limit and rate, or the error. -/
def status (d : IvDesk) (store : EncounterStore) (now : Instant) : String × EncounterStore :=
  match queue store with
  | .error error => ("Error: " ++ error.message, store)
  | .ok queued =>
    match checksPerHour store now with
    | .error error => ("Error: " ++ error.message, store)
    | .ok (rate, store) =>
      (s!"IV: {queued.length}/{d.limit} queued, {rate} IV/h", store)

/-- Forgets the queue and the checks, if the store works. -/
def reset (store : EncounterStore) : EncounterStore :=
  match store.clear with
  | .ok (_, store) => store
  | .error _ => store

end IvDesk

end ScanFleet
