import ScanFleet.Fleet.Clock
import ScanFleet.Fleet.Firing
import ScanFleet.Fleet.Instances
import ScanFleet.Schedule
import ScanFleet.Settings

set_option autoImplicit false

/-! # Stations

A station runs a fleet by a schedule. A listener of the station is told when devices are released
and when an instance completes its pass; as a rule it is the schedule, which then places devices or
fires the rules that wait for the completion. The local clock of the station lies a fixed number of
seconds east. -/

namespace ScanFleet

/-- Who is told about released devices and completed passes. -/
inductive Listener where
  | nobody
  | schedule
  | log
  deriving DecidableEq, Repr, Inhabited

/-- Where completions go. -/
inductive Relay where
  /-- They pile up until somebody takes them. -/
  | waiting
  /-- They are told to the listener. -/
  | forwarding
  /-- A forwarded completion did not come to an end, and none gets past it. -/
  | held
  /-- They are taken by somebody else. -/
  | taken
  deriving DecidableEq, Repr, Inhabited

/-- A fleet, its schedule and the work in the background. -/
structure Station where
  settings : Settings := {}
  fleet : Fleet := {}
  schedule : Schedule := {}
  now : Instant := .ofSeconds 0
  /-- Seconds east of the local zone. -/
  localOffset : Int := 0
  listener : Listener := .schedule
  /-- What the listener was told, if it is a log. -/
  log : List String := []
  relay : Relay := .waiting
  /-- Seconds to the next tick of the schedule, while it runs. -/
  ticking : Option Nat := none
  /-- Seconds to the next status report, while reports run. -/
  reporting : Option Nat := none
  /-- Seconds to the next report of each series that was started before and never stopped. -/
  unattended : List Nat := []

instance : Inhabited Station := ⟨{}⟩

namespace Station

/-- A station over stored tables, with its settings. -/
def ofTables (tables : Tables) (settings : Settings) : Station where
  settings := settings
  fleet := {
    storage := { tables }
    lookups := { zones := settings.zones }
    queueLimit := settings.queueLimit }

/-- The local date, unless the clock shows nothing or the date lies beyond the calendar. -/
def today? (s : Station) : Option Date := s.now.zoneClockDate? s.localOffset

/-- Seconds since local midnight. -/
def localSecond (s : Station) : Nat := s.now.localSecond s.localOffset

/-- Takes over the fleet after one of its operations. -/
def onFleet {α : Type} (s : Station) (result : α × Fleet) : α × Station :=
  (result.1, { s with fleet := result.2 })

/-! ## Rules -/

/-- Takes over the schedule after a change, unless it was refused. -/
def onSchedule (s : Station) : Except FleetError Schedule → Except Halt Unit × Station
  | .ok schedule => (.ok (), { s with schedule })
  | .error error => (.error (.failed error), s)

/-- Puts a rule in force. -/
def addRule (s : Station) (a : Assignment) : Except Halt Unit × Station :=
  s.onSchedule (s.schedule.add a)

/-- Takes a rule out of force. -/
def deleteRule (s : Station) (id : UInt32) : Except Halt Unit × Station :=
  s.onSchedule (s.schedule.delete id)

/-- Puts a rule in the place of another, which is gone also when the new one is not added. -/
def editRule (s : Station) (old : UInt32) (a : Assignment) : Except Halt Unit × Station :=
  let (answer, schedule) := s.schedule.edit old a
  (answer.mapError .failed, { s with schedule })

/-! ## Firing -/

/-- Places devices without an instance, as of a local date and second; answers how many. -/
def startUpAt (s : Station) (today : Date) (second : Nat) : Except Halt Nat × Station :=
  { s with schedule := s.schedule.countPass }.onFleet
    (s.fleet.placeAll (s.schedule.startupRules today second))

/-- Places devices without an instance. -/
def startUp (s : Station) : Except Halt Nat × Station :=
  match s.today? with
  | some today => s.startUpAt today s.localSecond
  | none => (.error .beyondCalendar, s)

/-- Fires the rules that wait for the completion of an instance; answers how many devices moved. -/
def complete (s : Station) (name : String) : Except Halt Nat × Station :=
  match s.today? with
  | some today => s.onFleet (s.fleet.fireCompletion name (s.schedule.completionRules name today))
  | none => (.error .beyondCalendar, s)

/-- What a tick did. -/
structure Tick where
  /-- How many rules were fired. -/
  fired : Nat
  /-- How many devices moved, if every rule came to an end. -/
  moved : Option Nat
  deriving DecidableEq, Repr

/-- Fires the clock rules that are due at a local date and second, and carries them out one after
    another. `tickInRounds` carries them out side by side. -/
def tickAt (s : Station) (today : Date) (second : Nat) : Tick × Station :=
  let (due, schedule) := s.schedule.tick today second
  let (moved, fleet) := s.fleet.fireDue due
  (⟨due.length, moved⟩, { s with schedule, fleet })

/-- Fires the clock rules that are due now, and counts the tick. -/
def tick (s : Station) : Except Halt Tick × Station :=
  match s.today? with
  | some today =>
    let (outcome, s) := s.tickAt today s.localSecond
    (.ok outcome, { s with fleet := s.fleet.countTick })
  | none => (.error .beyondCalendar, s)

/-- Fires a rule of the schedule by hand; answers how many devices moved. -/
def fireByHand (s : Station) (id : UInt32) (force : Bool) : Except Halt Nat × Station :=
  match s.schedule.rule? id with
  | none => (.error (.failed (.assignmentNotFound id)), s)
  | some rule => s.onFleet (s.fleet.fireByHand rule force)

/-! ## The listener -/

/-- Tells the listener that devices were released. -/
def tellReleased (s : Station) : Except Halt Unit × Station :=
  match s.listener with
  | .nobody => (.ok (), s)
  | .log => (.ok (), { s with log := s.log ++ ["released"] })
  | .schedule =>
    match s.startUp with
    | (.ok _, s) => (.ok (), s)
    | (.error halt, s) => (.error halt, s)

/-- Tells the listener that an instance completed its pass. -/
def tellCompleted (s : Station) (name : String) : Except Halt Unit × Station :=
  match s.listener with
  | .nobody => (.ok (), s)
  | .log => (.ok (), { s with log := s.log ++ ["done " ++ name] })
  | .schedule =>
    match s.complete name with
    | (.ok _, s) => (.ok (), s)
    | (.error halt, s) => (.error halt, s)

/-- Removes an instance, and tells that its devices were released. -/
def removeInstance (s : Station) (name : String) : Except Halt Unit × Station :=
  match s.onFleet (s.fleet.removeInstance name) with
  | (.ok (), s) => s.tellReleased
  | (.error halt, s) => (.error halt, s)

/-- Removes a device, and tells that devices were released. -/
def removeDevice (s : Station) (uuid : String) : Except Halt Unit × Station :=
  match s.onFleet (s.fleet.removeDevice uuid) with
  | (.ok (), s) => s.tellReleased
  | (.error error, s) => (.error (.failed error), s)

end Station

end ScanFleet
