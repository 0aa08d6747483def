import ScanFleet.Fleet.Build

set_option autoImplicit false

/-! # The instances of a fleet

Instances are loaded from storage, added, replaced and removed. Their devices follow: those of a
replaced instance move on to the new one, those of a removed instance are released. -/

namespace ScanFleet

/-- Puts the devices that work for an instance to work for another, or for none. -/
def Device.shift (name : String) (other : Option String) (d : Device) : Device :=
  if d.worksFor name then d.assign other else d

theorem Device.key_shift (name : String) (other : Option String) (d : Device) :
    key (d.shift name other) = key d := by
  rw [shift]
  split
  · rfl
  · rfl

namespace Fleet

/-- Loads devices and instances from storage and builds a job for each instance; answers how many jobs
    could be built. -/
def start (f : Fleet) (now : Instant) : Except FleetError Nat × Fleet :=
  match f.storage.devices, f.storage.instances with
  | .error error, _ => (.error error, f)
  | .ok _, .error error => (.error error, f)
  | .ok devices, .ok instances =>
    let loaded := { f with
      definitions := instances.foldl Table.insert f.definitions
      devices := devices.foldl Table.insert f.devices }
    let (built, f) := loaded.installAll now instances
    (.ok built, f.refreshSize)

/-- Stops every job and forgets all definitions and devices. -/
def stop (f : Fleet) : Fleet :=
  refreshSize { f with
    definitions := .empty
    jobs := .empty
    retired := f.retired ++ f.jobs.rows.map Job.stop
    devices := .empty }

/-- Loads everything from storage again. -/
def restart (f : Fleet) (now : Instant) : Except FleetError Nat × Fleet :=
  let stopped := f.stop
  start { stopped with lookups := stopped.lookups.refresh } now

/-- Adds an instance, or gives it another definition. The definition stays when the job cannot be built.
    -/
def addInstance (f : Fleet) (definition : Instance) (now : Instant) : Except Halt Unit × Fleet :=
  { f with definitions := f.definitions.insert definition }.install definition now

/-- The devices of an instance that get another name to work for. -/
def shifted (f : Fleet) (name : String) (other : Option String) : List Device :=
  if other = some name then [] else (f.crew name).map (·.assign other)

/-- The fleet without an instance and its job; the devices of the instance work for another, or for none.
    -/
def withdraw (f : Fleet) (name : String) (other : Option String) : Fleet :=
  { f with
    definitions := f.definitions.erase name
    jobs := f.jobs.erase name
    devices := f.devices.map (Device.shift name other) (Device.key_shift name other) }

/-- Puts a definition in the place of an instance. Its devices move on to the new definition, their rows
    are written, and the job is built from fresh lookups. -/
def replaceInstance (f : Fleet) (definition : Instance) (old : String) (now : Instant) :
    Except Halt Unit × Fleet :=
  let oldDefinition := f.definitions.get? old
  let oldJob := f.jobs.get? old
  let moved := f.shifted old (some definition.name)
  let f := f.withdraw old (some definition.name)
  let f := { f with definitions := f.definitions.insert definition }
  match f.storage.writeAll moved with
  | (false, storage) =>
    (.error .stalled, { f with storage, retired := f.retired ++ oldJob.toList })
  | (true, storage) =>
    let lookups := (oldDefinition.toList ++ [definition]).foldl Lookups.forget f.lookups
    let retired := f.retired ++ (oldJob.map Job.stop).toList
    install { f with storage, lookups, retired } definition now

/-- Removes an instance. Its job is stopped, its devices are released and their rows are written. -/
def removeInstance (f : Fleet) (name : String) : Except Halt Unit × Fleet :=
  if !f.definitions.has name && !f.jobs.has name then
    (.error (.failed (.instanceNotFound name)), f)
  else
    let retired := f.retired ++ ((f.jobs.get? name).map Job.stop).toList
    let released := f.shifted name none
    let f := { f.withdraw name none with retired }
    match f.storage.writeAll released with
    | (false, storage) => (.error .stalled, { f with storage })
    | (true, storage) => (.ok (), refreshSize { f with storage })

end Fleet

end ScanFleet
