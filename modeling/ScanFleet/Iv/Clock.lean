import ScanFleet.Iv.Desk

set_option autoImplicit false

/-! # IV desks by the clock

A desk asks for the time when a sighting is eligible, when a check is to be counted, and whenever the
queue is worked off. While the clock shows nothing, that cannot be done. Nor can it be done when the
area has no answer to where a sighting lies. -/

namespace ScanFleet

namespace IvDesk

/-- Whether an offered sighting can be screened: the area answers for it, or is not asked. Only listed
    species without individual values come before the area. -/
def canScreen (d : IvDesk) (s : Sighting) : Bool :=
  (d.list.rank? s.species).isNone || s.iv.isSome || (d.area.contains? s.place).isSome

/-- Admits a sighting by the clock. -/
def considerByClock? (d : IvDesk) (store : EncounterStore) (s : Sighting) (clock : Instant) :
    Option (Except JobError Admission × IvDesk × EncounterStore) :=
  if d.canScreen s then clock.byClock (d.eligible s) (d.consider store s clock) else none

/-- Takes a checked encounter out of the queue and counts the check, by the clock. -/
def recordIvByClock? (d : IvDesk) (store : EncounterStore) (s : Sighting) (clock : Instant) :
    Option (Except JobError Bool × EncounterStore) :=
  if (d.area.contains? s.place).isSome then
    clock.byClock (d.counts store s) (d.recordIv store s clock)
  else none

/-- Takes out the first encounter that has not despawned by the clock. -/
def nextByClock? (store : EncounterStore) (clock : Instant) :
    Option (Except JobError (Option Sighting) × EncounterStore) :=
  clock.byClock true (next store clock)

/-- The number of checks within the last hour of the clock. -/
def checksPerHourByClock? (store : EncounterStore) (clock : Instant) :
    Option (EncounterStore.Outcome Nat) :=
  clock.byClock true (checksPerHour store clock)

/-- Admits a sighting by the clock, if the store works. -/
def offerByClock? (d : IvDesk) (store : EncounterStore) (s : Sighting) (clock : Instant) :
    Option (IvDesk × EncounterStore) :=
  (d.considerByClock? store s clock).map (·.2)

/-- Counts a check by the clock, if the store works. -/
def noteByClock? (d : IvDesk) (store : EncounterStore) (s : Sighting) (clock : Instant) :
    Option EncounterStore :=
  (d.recordIvByClock? store s clock).map (·.2)

/-- The task of checking the next encounter by the clock. -/
def nextTaskByClock? (store : EncounterStore) (minLevel maxLevel : UInt8) (clock : Instant) :
    Option (Option Task × EncounterStore) :=
  clock.byClock true (nextTask store minLevel maxLevel clock)

/-- Queue length, limit and rate by the clock. -/
def statusByClock? (d : IvDesk) (store : EncounterStore) (clock : Instant) :
    Option (String × EncounterStore) :=
  clock.byClock store.snapshot.isOk (d.status store clock)

end IvDesk

end ScanFleet
