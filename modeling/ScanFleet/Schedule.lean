import ScanFleet.Error

set_option autoImplicit false

/-! # Schedules

A schedule holds the assignment rules in force and a watermark: the local date and second up to
which its clock rules have been fired. A tick moves the watermark on and fires the rules whose time
lies between the old watermark and the new one, on either side of a midnight in between. -/

namespace ScanFleet

/-- The local date and second of a tick. -/
structure Watermark where
  date : Date
  /-- Seconds since local midnight. -/
  second : Nat
  deriving DecidableEq, Repr

/-- The rules in force and how far they have been fired. -/
structure Schedule where
  rules : List Assignment := []
  /-- Nothing until the first tick. -/
  watermark : Option Watermark := none
  /-- How many startup passes were made. -/
  startupPasses : Nat := 0
  deriving DecidableEq, Inhabited

namespace Schedule

/-- A refused assignment. -/
def refusal (fault : AssignmentFault) : FleetError := .model (.invalidAssignment fault.text)

/-! ## Rules -/

/-- Puts stored rules in force, in the place of all others. Rules that would be refused are left out. -/
def load (s : Schedule) (stored : List Assignment) : Schedule :=
  { s with rules := stored.filter fun a => decide a.IsValid }

/-- Forgets the rules and the watermark. -/
def clear (s : Schedule) : Schedule := { s with rules := [], watermark := none }

/-- The rules in order of their ids. -/
def byId (s : Schedule) : List Assignment := s.rules.mergeSort fun a b => decide (a.id ≤ b.id)

/-- The rule with the given id. -/
def rule? (s : Schedule) (id : UInt32) : Option Assignment := s.rules.find? (·.id == id)

/-- Puts a rule in force. Its id must be new. -/
def add (s : Schedule) (a : Assignment) : Except FleetError Schedule :=
  match a.fault? with
  | some fault => .error (refusal fault)
  | none =>
    if (s.rule? a.id).isSome then
      .error (.invalidRequest ("assignment " ++ toString a.id ++ " already exists"))
    else .ok { s with rules := s.rules ++ [a] }

/-- Takes a rule out of force. -/
def delete (s : Schedule) (id : UInt32) : Except FleetError Schedule :=
  if (s.rule? id).isNone then .error (.assignmentNotFound id)
  else .ok { s with rules := s.rules.filter (·.id != id) }

/-- Puts a rule in the place of another, which is gone also when the new one is not added. -/
def edit (s : Schedule) (old : UInt32) (a : Assignment) : Except FleetError Unit × Schedule :=
  match a.fault? with
  | some fault => (.error (refusal fault), s)
  | none =>
    match s.delete old with
    | .error error => (.error error, s)
    | .ok s =>
      match s.add a with
      | .error error => (.error error, s)
      | .ok s => (.ok (), s)

/-- Takes every rule out of force; the watermark stays. -/
def deleteAll (s : Schedule) : Schedule := { s with rules := [] }

/-! ## Firing -/

/-- The rules that wait for a time of day. -/
def clockRules (s : Schedule) : List Assignment :=
  s.rules.filter fun a => a.enabled && !a.onCompletion

/-- Whether the time of a rule comes after `since` and not after `upTo` on a date. -/
def fallsWithin (a : Assignment) (date : Date) (since upTo : Nat) : Bool :=
  decide (since < a.time.toNat) && decide (a.time.toNat ≤ upTo) && a.holdsOn date

/-- Whether the time of a rule comes after `since` on a date. -/
def fallsAfter (a : Assignment) (date : Date) (since : Nat) : Bool :=
  decide (since < a.time.toNat) && a.holdsOn date

/-- Whether the time of a rule does not come after `upTo` on a date. -/
def fallsUpTo (a : Assignment) (date : Date) (upTo : Nat) : Bool :=
  decide (a.time.toNat ≤ upTo) && a.holdsOn date

/-- Moves the watermark and answers the clock rules that are due. The first tick only sets it. When the
    clock went back within the day, the watermark holds, so that nothing is fired again. A second that
    lies before the watermark on another date means that a midnight has passed: the rest of the day
    before the new date is due, and the new day so far. -/
def tick (s : Schedule) (today : Date) (second : Nat) : List Assignment × Schedule :=
  let moved := { s with watermark := some ⟨today, second⟩ }
  match s.watermark with
  | none => ([], moved)
  | some mark =>
    if mark.second ≤ second then
      (s.clockRules.filter fun a => fallsWithin a today mark.second second, moved)
    else if mark.date = today then ([], s)
    else
      let due (a : Assignment) : Bool :=
        today.before?.any (fallsAfter a · mark.second) || fallsUpTo a today second
      (s.clockRules.filter due, moved)

/-- A tick moves the watermark and nothing else. -/
theorem tick_eq (s : Schedule) (today : Date) (second : Nat) :
    (s.tick today second).2 = { s with watermark := (s.tick today second).2.watermark } := by
  rw [tick]
  split
  · rfl
  · split
    · rfl
    · split
      · rfl
      · rfl

/-- The rules that wait for an instance, or for any instance, to complete its pass. -/
def completionRules (s : Schedule) (completed : String) (today : Date) : List Assignment :=
  s.rules.filter fun a =>
    a.enabled && a.onCompletion && a.source.all (· == completed) && a.holdsOn today

/-- The rules that place devices without an instance: those that need no source and whose time has come
    today, or that have no time. -/
def startupRules (s : Schedule) (today : Date) (second : Nat) : List Assignment :=
  s.rules.filter fun a =>
    a.enabled && a.source.isNone && (a.onCompletion || decide (a.time.toNat ≤ second))
      && a.holdsOn today

/-- Counts a startup pass. -/
def countPass (s : Schedule) : Schedule := { s with startupPasses := s.startupPasses + 1 }

end Schedule

end ScanFleet
