import ScanFleet.Store.Tables

set_option autoImplicit false

/-! # Storage

Storage gives access to the stored tables. An access may be down, for a single row or for all: then it
fails and changes nothing. A write of a device may also hang: then it never comes to an end. -/

namespace ScanFleet

/-- The ways of accessing storage. An access to rows tells which rows, unless all are meant. -/
inductive StorageAccess where
  | allInstances
  | allDevices
  | device (uuid : Option String := none)
  | devices (uuids : Option (List String) := none)
  | updateDevice (uuid : Option String := none)
  | allAssignments
  | geofence (name : Option String := none)
  | ivList (name : Option String := none)
  | group (name : Option String := none)
  deriving DecidableEq, Repr, Inhabited

/-- The same way of access, to all rows. -/
def StorageAccess.toAll : StorageAccess → StorageAccess
  | device _ => device
  | devices _ => devices
  | updateDevice _ => updateDevice
  | geofence _ => geofence
  | ivList _ => ivList
  | group _ => group
  | access => access

/-- The stored tables and what is wrong with their access. -/
structure Storage where
  tables : Tables := {}
  /-- The accesses that are down. -/
  down : List StorageAccess := []
  /-- The devices whose writes hang. -/
  hanging : List String := []
  deriving Inhabited

/-- What becomes of a write. -/
inductive Write where
  | done (storage : Storage)
  | failed
  | hangs

namespace Storage

/-- Whether an access is down, or its way of access to all rows. -/
def isDown (s : Storage) (access : StorageAccess) : Bool :=
  decide (access ∈ s.down ∨ access.toAll ∈ s.down)

/-- The answer of a read, unless the access is down. -/
def read {α : Type} (s : Storage) (access : StorageAccess) (answer : α) : Except FleetError α :=
  if s.isDown access then .error (.storage "offline") else .ok answer

/-- A read that succeeds answers what is stored. -/
theorem eq_of_read {α : Type} {s : Storage} {access : StorageAccess} {stored answer : α}
    (h : s.read access stored = .ok answer) : stored = answer := by
  unfold read at h
  split at h
  · cases h
  · exact Except.ok.inj h

/-- All instances, in order of their names. -/
def instances (s : Storage) : Except FleetError (List Instance) :=
  s.read .allInstances s.tables.instances.rows

/-- All devices, in order of their uuids. -/
def devices (s : Storage) : Except FleetError (List Device) :=
  s.read .allDevices s.tables.devices.rows

/-- All assignments, in order of their ids. -/
def assignments (s : Storage) : Except FleetError (List Assignment) :=
  s.read .allAssignments s.tables.assignments.rows

/-- The device with the given uuid. -/
def device? (s : Storage) (uuid : String) : Except FleetError (Option Device) :=
  s.read (.device uuid) (s.tables.devices.get? uuid)

/-- The devices with the given uuids, unknown ones left out. -/
def devicesAmong (s : Storage) (uuids : List String) : Except FleetError (List Device) :=
  s.read (.devices uuids) (uuids.filterMap s.tables.devices.get?)

/-- The geofence with the given name. -/
def geofence? (s : Storage) (name : String) : Except FleetError (Option Geofence) :=
  s.read (.geofence name) (s.tables.geofences.get? name)

/-- The IV list with the given name. -/
def ivList? (s : Storage) (name : String) : Except FleetError (Option IvList) :=
  s.read (.ivList name) (s.tables.ivLists.get? name)

/-- The device group with the given name. -/
def group? (s : Storage) (name : String) : Except FleetError (Option DeviceGroup) :=
  s.read (.group name) (s.tables.groups.get? name)

/-- Writes the row of a device. -/
def write (s : Storage) (d : Device) : Write :=
  if s.isDown (.updateDevice d.uuid) then .failed
  else if d.uuid ∈ s.hanging then .hangs
  else .done { s with tables := { s.tables with devices := s.tables.devices.insert d } }

/-- Writes rows one after another and passes over writes that fail. The first write that hangs holds up
    the rest; answers whether all came to an end. -/
def writeAll (s : Storage) : List Device → Bool × Storage
  | [] => (true, s)
  | d :: rest =>
    match s.write d with
    | .done s => s.writeAll rest
    | .failed => s.writeAll rest
    | .hangs => (false, s)

/-- The members of a device group; none when it is unknown or cannot be read. -/
def members (s : Storage) (name : String) : List String :=
  match s.group? name with
  | .ok (some group) => group.members
  | _ => []

end Storage

end ScanFleet
