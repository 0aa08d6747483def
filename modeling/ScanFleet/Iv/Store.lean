import ScanFleet.Error
import ScanFleet.Iv.Queue

set_option autoImplicit false

/-! # Encounter stores

A store holds an encounter queue and the instants of the checks that were made. An operation of a
store may be down: then it fails before it does anything. -/

namespace ScanFleet

/-- The operations of a store. -/
inductive StoreOperation where
  | insert
  | remove
  | popFront
  | truncate
  | removeExpired
  | snapshot
  | clear
  | recordCheck
  | checksSince
  deriving DecidableEq, Repr, Inhabited

/-- A queue of encounters and the checks made. -/
structure EncounterStore where
  queue : EncounterQueue := []
  /-- The instants of the checks, in the order in which they were recorded. -/
  checks : List Instant := []
  /-- The operations that are down. -/
  down : List StoreOperation := []
  deriving DecidableEq, Inhabited

namespace EncounterStore

/-- The outcome of an operation that changes the store: the error leaves it as it was. -/
abbrev Outcome (α : Type) := Except JobError (α × EncounterStore)

/-- Runs an operation unless it is down. -/
def guard {α : Type} (s : EncounterStore) (operation : StoreOperation) (result : α) :
    Except JobError α :=
  if operation ∈ s.down then .error (.poisoned "IV queue") else .ok result

/-- Inserts an entry; answers whether its encounter was not queued yet. -/
def insert (s : EncounterStore) (entry : QueueEntry) : Outcome Bool :=
  let (inserted, queue) := s.queue.insert entry
  s.guard .insert (inserted, { s with queue })

/-- Takes out an encounter; answers its entry. -/
def remove (s : EncounterStore) (encounter : String) : Outcome (Option QueueEntry) :=
  let (removed, queue) := s.queue.remove encounter
  s.guard .remove (removed, { s with queue })

/-- Takes out the first entry. -/
def popFront (s : EncounterStore) : Outcome (Option QueueEntry) :=
  let (first, queue) := s.queue.popFront
  s.guard .popFront (first, { s with queue })

/-- Keeps the first entries; answers how many were dropped. -/
def truncate (s : EncounterStore) (limit : Nat) : Outcome Nat :=
  let (dropped, queue) := s.queue.truncate limit
  s.guard .truncate (dropped, { s with queue })

/-- Drops what has despawned; answers how many entries that were. -/
def removeExpired (s : EncounterStore) (now : Int) : Outcome Nat :=
  let (dropped, queue) := s.queue.removeExpired now
  s.guard .removeExpired (dropped, { s with queue })

/-- The queue as it stands. -/
def snapshot (s : EncounterStore) : Except JobError EncounterQueue := s.guard .snapshot s.queue

/-- Forgets the queue and the checks. -/
def clear (s : EncounterStore) : Outcome Unit :=
  s.guard .clear ((), { s with queue := [], checks := [] })

/-- Records a check. -/
def recordCheck (s : EncounterStore) (check : Instant) : Outcome Unit :=
  s.guard .recordCheck ((), { s with checks := s.checks ++ [check] })

/-- Forgets the checks at the front that lie before `since`; answers how many are left. -/
def checksSince (s : EncounterStore) (since : Instant) : Outcome Nat :=
  let checks := s.checks.dropWhile fun check => check.before since
  s.guard .checksSince (checks.length, { s with checks })

end EncounterStore

end ScanFleet
