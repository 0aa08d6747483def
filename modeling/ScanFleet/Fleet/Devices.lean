import ScanFleet.Fleet.Basic

set_option autoImplicit false

/-! # The devices of a fleet

Devices are added, removed, replaced, located, and moved from one instance to another. A move stands
also when its row cannot be written. -/

namespace ScanFleet

namespace Fleet

/-- Adds a device; answers whether it was new. -/
def addDevice (f : Fleet) (device : Device) : Bool × Fleet :=
  if f.devices.has device.uuid then (false, f)
  else
    (true, attach { f with devices := f.devices.insert device } device.instanceName device.uuid)

/-- Removes a device. -/
def removeDevice (f : Fleet) (uuid : String) : Except FleetError Unit × Fleet :=
  match f.devices.get? uuid with
  | none => (.error (.deviceNotFound uuid), f)
  | some device =>
    (.ok (), detach { f with devices := f.devices.erase uuid } device.instanceName uuid)

/-- Puts a device in the place of another, which need not be there. -/
def replaceDevice (f : Fleet) (device : Device) (old : String) : Fleet :=
  let former := (f.devices.get? old).bind (·.instanceName)
  let replaced := { f with devices := (f.devices.erase old).insert device }
  (replaced.detach former old).attach device.instanceName device.uuid

/-- Notes where and when a device checked in. -/
def locate (f : Fleet) (uuid : String) (place : Coordinate) (now : Instant) :
    Except FleetError Unit × Fleet :=
  match f.devices.get? uuid with
  | none => (.error (.deviceNotFound uuid), f)
  | some device =>
    let seen := { device with location := some place, lastSeen := some (.ofInt now.seconds) }
    (.ok (), { f with devices := f.devices.insert seen })

/-- A device as the fleet knows it, or else as it is stored. -/
def recruit (f : Fleet) (uuid : String) : Except FleetError Device :=
  match f.devices.get? uuid with
  | some device => .ok device
  | none =>
    match f.storage.device? uuid with
    | .error error => .error error
    | .ok none => .error (.deviceNotFound uuid)
    | .ok (some device) => .ok device

/-- Moves a device of the fleet to another instance: it leaves its job, its row is written, and it is
    attached to the job of the new instance. -/
def move (f : Fleet) (device : Device) (target : String) : Except Halt Unit × Fleet :=
  let moved := device.assign (some target)
  let f := detach { f with devices := f.devices.insert moved } device.instanceName device.uuid
  match f.storage.write moved with
  | .hangs => (.error .stalled, f)
  | .failed => (.ok (), (f.attach (some target) device.uuid).countReassignment)
  | .done storage =>
    (.ok (), (attach { f with storage } (some target) device.uuid).countReassignment)

/-- Moves a device to an instance, if it is not there already. A device that the fleet does not know is
    taken from storage. -/
def reassign (f : Fleet) (uuid target : String) : Except Halt Unit × Fleet :=
  if !f.definitions.has target then (.error (.failed (.instanceNotFound target)), f)
  else
    match f.recruit uuid with
    | .error error => (.error (.failed error), f)
    | .ok device =>
      if device.worksFor target then (.ok (), { f with devices := f.devices.insert device })
      else f.move device target

end Fleet

end ScanFleet
