import ScanFleet.Station.Basic

set_option autoImplicit false

/-! # Running a station

A running station ticks its schedule and reports statuses at fixed intervals, and forwards
completions. Work in the background goes on between the requests to the station: first completions
in order, then the status reports that are due, then a tick that is due. -/

namespace ScanFleet

namespace Station

/-! ## Start and stop -/

/-- Puts the stored rules in force; answers how many are. -/
def loadRules (s : Station) : Except FleetError Nat × Station :=
  match s.fleet.storage.assignments with
  | .error error => (.error error, s)
  | .ok stored =>
    let schedule := s.schedule.load stored
    (.ok schedule.rules.length, { s with schedule })

/-- Loads the rules, places devices, and lets the schedule tick from now on; answers how many rules are
    in force. -/
def startSchedule (s : Station) : Except Halt Nat × Station :=
  match s.loadRules with
  | (.error error, s) => (.error (.failed error), s)
  | (.ok loaded, s) =>
    match s.startUp with
    | (.ok _, s) => (.ok loaded, { s with ticking := some 0 })
    | (.error halt, s) => (.error halt, s)

/-- Ends the ticks and forgets the rules. -/
def stopSchedule (s : Station) : Station :=
  { s with schedule := s.schedule.clear, ticking := none }

/-- Starts the schedule over. -/
def restartSchedule (s : Station) : Except Halt Nat × Station := s.stopSchedule.startSchedule

/-- Forwards completions from now on; answers whether it is this that starts it. -/
def forward (s : Station) : Bool × Station :=
  if s.relay = .waiting then (true, { s with relay := .forwarding }) else (false, s)

/-- Starts the fleet, then the schedule; answers how many jobs could be built. -/
def start (s : Station) : Except Halt Nat × Station :=
  match s.onFleet (s.fleet.start s.now) with
  | (.error error, s) => (.error (.failed error), s)
  | (.ok built, s) =>
    match s.forward.2.startSchedule with
    | (.ok _, s) => (.ok built, s)
    | (.error halt, s) => (.error halt, s)

/-- Stops the schedule and the fleet. Completions are forwarded all the same. -/
def stop (s : Station) : Station :=
  let s := s.stopSchedule
  { s with fleet := s.fleet.stop }

/-- Loads everything from storage again; answers how many jobs could be built. -/
def restart (s : Station) : Except Halt Nat × Station :=
  let s := s.stopSchedule
  match s.onFleet (s.fleet.restart s.now) with
  | (.error error, s) => (.error (.failed error), s)
  | (.ok built, s) =>
    match s.startSchedule with
    | (.ok _, s) => (.ok built, s)
    | (.error halt, s) => (.error halt, s)

/-! ## Status reports -/

/-- Reports statuses from now on. A series of reports that was started before goes on, and can no longer
    be stopped. -/
def startReports (s : Station) : Station :=
  { s with reporting := some 0, unattended := s.unattended ++ s.reporting.toList }

/-- Ends the series of reports that was started last. -/
def stopReports (s : Station) : Station := { s with reporting := none }

/-- Asks for all statuses and shows the size of the fleet; answers whether the clock allowed it. -/
def report (s : Station) : Bool × Station :=
  match s.fleet.statusesByClock? s.now with
  | some (_, fleet) => (true, { s with fleet := fleet.refreshSize })
  | none => (false, { s with fleet := s.fleet.breakClockJob })

/-- Makes the reports that are due; answers what is left of the series and the seconds to the next report
    of each. A report that the clock does not allow ends its series. -/
def reportDue (s : Station) : List Nat → List Nat × Station
  | [] => ([], s)
  | 0 :: rest =>
    let (reported, s) := s.report
    let (later, s) := s.reportDue rest
    (if reported then s.settings.statusSeconds :: later else later, s)
  | left :: rest =>
    let (later, s) := s.reportDue rest
    (left :: later, s)

/-! ## Completions -/

/-- Tells the listener about completions, in order. When one does not come to an end, forwarding is held
    up for good. -/
def forwardAll (s : Station) : List String → Station
  | [] => s
  | name :: rest =>
    match s.tellCompleted name with
    | (.ok (), s) => s.forwardAll rest
    | (.error _, s) => { s with relay := .held }

/-- Forwards the completions that have piled up, if forwarding is on. -/
def forwardCompletions (s : Station) : Station :=
  if s.relay = .forwarding then
    { s with fleet := { s.fleet with completions := [] } }.forwardAll s.fleet.completions
  else s

/-- Takes the completions that have piled up, unless they are forwarded; answers whether they were not
    taken by anyone before. -/
def takeCompletions (s : Station) : (Bool × List String) × Station :=
  let first := decide (s.relay = .waiting)
  if first ∨ s.relay = .taken then
    ((first, s.fleet.completions),
      { s with fleet := { s.fleet with completions := [] }, relay := .taken })
  else ((false, []), s)

/-- What the log was told since it was last read. -/
def readLog (s : Station) : List String × Station := (s.log, { s with log := [] })

/-! ## Time -/

/-- Makes the status reports that are due, the series that were started earlier first. -/
def reportIfDue (s : Station) : Station :=
  let (unattended, s) := s.reportDue s.unattended
  let (reporting, s) := s.reportDue s.reporting.toList
  { s with unattended, reporting := reporting.head? }

/-- Makes the tick that is due, if one is. Ticks end when the clock leaves the calendar. -/
def tickIfDue (s : Station) : Station :=
  if s.ticking = some 0 then
    match s.tick with
    | (.ok _, s) => { s with ticking := some s.settings.tickSeconds }
    | (.error _, s) => { s with ticking := none }
  else s

/-- Does all work in the background that can be done now. -/
def settle (s : Station) : Station := s.forwardCompletions.reportIfDue.tickIfDue

/-- Sets the clock; intervals go on as they were. -/
def setClock (s : Station) (now : Instant) : Station := { s with now }

/-- Lets one second pass. -/
def passSecond (s : Station) : Station :=
  { s with
    now := { s.now with seconds := s.now.seconds + 1 }
    ticking := s.ticking.map (· - 1)
    reporting := s.reporting.map (· - 1)
    unattended := s.unattended.map (· - 1) }

/-- Lets seconds pass, with the work in the background that comes up meanwhile. -/
def pass (s : Station) : Nat → Station
  | 0 => s
  | n + 1 => s.passSecond.settle.pass n

end Station

end ScanFleet
