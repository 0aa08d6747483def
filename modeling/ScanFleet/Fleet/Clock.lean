import ScanFleet.Fleet.Devices
import ScanFleet.Fleet.Work

set_option autoImplicit false

/-! # Fleets by the clock

What a fleet does by the clock can be done when the clock shows the time, or when no job and no
device needs it. A job that is asked for its status while the clock shows nothing breaks. The areas of
a fleet are decoded ones, so they answer for every sighting. -/

namespace ScanFleet

namespace Fleet

/-- The first job in a list of statuses whose status needs the clock. -/
def clockJob? (f : Fleet) : Option Job :=
  f.definitions.rows.findSome? fun definition =>
    (f.jobs.get? definition.name).filter (·.statusNeedsClock)

/-- The status of an instance by the clock. -/
def statusByClock? (f : Fleet) (name : String) (clock : Instant) : Option (Option String × Fleet) :=
  clock.byClock ((f.jobs.get? name).any (·.statusNeedsClock)) (f.status? name clock)

/-- The statuses of all instances by the clock. -/
def statusesByClock? (f : Fleet) (clock : Instant) : Option (List InstanceStatus × Fleet) :=
  clock.byClock f.clockJob?.isSome (f.statuses clock)

/-- Offers a sighting to every job by the clock. -/
def addSightingByClock? (f : Fleet) (s : Sighting) (clock : Instant) : Option Fleet :=
  clock.byClock (f.jobs.rows.any (·.sightingNeedsClock s)) (f.addSighting s clock)

/-- Reports a checked encounter to every job by the clock. -/
def addIvByClock? (f : Fleet) (s : Sighting) (clock : Instant) : Option Fleet :=
  clock.byClock (f.jobs.rows.any (·.ivNeedsClock s)) (f.addIv s clock)

/-- Notes where and when a device checked in by the clock. -/
def locateByClock? (f : Fleet) (uuid : String) (place : Coordinate) (clock : Instant) :
    Option (Except FleetError Unit × Fleet) :=
  clock.byClock (f.devices.has uuid) (f.locate uuid place clock)

/-- The fleet after a report of statuses that the clock did not allow. -/
def breakClockJob (f : Fleet) : Fleet :=
  match f.clockJob? with
  | some job => { f with jobs := f.jobs.insert { job with broken := true } }
  | none => f

end Fleet

end ScanFleet
