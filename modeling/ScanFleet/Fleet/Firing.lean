import ScanFleet.Fleet.Devices

set_option autoImplicit false

/-! # Firing assignments

A fired assignment moves the devices it is about onto its target. Which devices move is decided
before the first of them moves. A device that cannot be moved is passed over; a write that hangs
holds up what waits for it. -/

namespace ScanFleet

/-- Whether a rule moves a device. One that is on the target already never moves. Unless forced, the
    device has to be on the source of the rule, and on the instance whose completion fired the rule. -/
def Assignment.moves (a : Assignment) (completed : Option String) (force : Bool) (d : Device) :
    Bool :=
  !d.worksFor a.target && (force || (a.source.all d.worksFor && completed.all d.worksFor))

/-- A device and the instance it is to work for. -/
structure Move where
  uuid : String
  target : String
  deriving DecidableEq, Repr, Inhabited

namespace Fleet

/-! ## Moves -/

/-- Makes moves one after another; answers how many went well. Each counts for a trigger first, if one is
    given. -/
def moveAll (f : Fleet) (trigger : Option Trigger) : List Move → Except Halt Nat × Fleet
  | [] => (.ok 0, f)
  | m :: rest =>
    let f := trigger.elim f f.countTrigger
    match f.reassign m.uuid m.target with
    | (.ok (), f) =>
      match f.moveAll trigger rest with
      | (.ok moved, f) => (.ok (moved + 1), f)
      | (.error halt, f) => (.error halt, f)
    | (.error (.failed _), f) => f.moveAll trigger rest
    | (.error halt, f) => (.error halt, f)

/-! ## A single assignment -/

/-- The uuids of the devices that an assignment is about; a forced one that names none is about every
    device of the fleet. -/
def subjectUuids (f : Fleet) (a : Assignment) (force : Bool) : Except FleetError (List String) :=
  match a.scope with
  | .device uuid => .ok [uuid]
  | .group name => (f.storage.group? name).map fun group => (group.map (·.members)).getD []
  | .unspecified => .ok (if force then f.devices.rows.map (·.uuid) else [])

/-- The devices that the fleet does not know. -/
def strangers (f : Fleet) (uuids : List String) : List String :=
  uuids.filter fun uuid => !f.devices.has uuid

/-- Devices as the fleet knows them, and after these the ones that are only stored. -/
def findDevices (f : Fleet) (uuids : List String) : Except FleetError (List Device) :=
  let known := uuids.filterMap f.devices.get?
  match f.strangers uuids with
  | [] => .ok known
  | unknown => (f.storage.devicesAmong unknown).map (known ++ ·)

/-- The devices that an assignment is about. -/
def subjects (f : Fleet) (a : Assignment) (force : Bool) : Except FleetError (List Device) :=
  match f.subjectUuids a force with
  | .error error => .error error
  | .ok uuids => f.findDevices uuids

/-- Moves the devices that an assignment is about; answers how many moved. -/
def carryOut (f : Fleet) (a : Assignment) (completed : Option String) (force : Bool) :
    Except Halt Nat × Fleet :=
  match f.subjects a force with
  | .error error => (.error (.failed error), f)
  | .ok devices =>
    let moving := devices.filter (a.moves completed force)
    f.moveAll none (moving.map fun d => ⟨d.uuid, a.target⟩)

/-- Fires an assignment by hand. -/
def fireByHand (f : Fleet) (a : Assignment) (force : Bool) : Except Halt Nat × Fleet :=
  (f.countTrigger .manual).carryOut a none force

/-! ## Many assignments -/

/-- Carries out the rules of a tick, each on its own: one that hangs does not hold up the others. Answers
    how many devices moved, if every rule came to an end. -/
def carryOutAll (f : Fleet) : List Assignment → Option Nat × Fleet
  | [] => (some 0, f)
  | a :: rest =>
    match f.carryOut a none false with
    | (.ok moved, f) =>
      let (others, f) := f.carryOutAll rest
      (others.map (moved + ·), f)
    | (.error (.failed _), f) => f.carryOutAll rest
    | (.error _, f) => (none, (f.carryOutAll rest).2)

/-- Fires the rules that a tick found due. -/
def fireDue (f : Fleet) (due : List Assignment) : Option Nat × Fleet :=
  carryOutAll (due.foldl (fun f _ => f.countTrigger .clock) f) due

/-- Fires rules one after another because an instance completed its pass; answers how many devices moved.
    -/
def fireCompletion (f : Fleet) (completed : String) : List Assignment → Except Halt Nat × Fleet
  | [] => (.ok 0, f)
  | a :: rest =>
    match (f.countTrigger .completion).carryOut a (some completed) false with
    | (.ok moved, f) =>
      match f.fireCompletion completed rest with
      | (.ok others, f) => (.ok (moved + others), f)
      | (.error halt, f) => (.error halt, f)
    | (.error (.failed _), f) => f.fireCompletion completed rest
    | (.error halt, f) => (.error halt, f)

/-! ## Startup passes -/

/-- Whether a rule names a device, itself or through its group. -/
def names (f : Fleet) (a : Assignment) (uuid : String) : Bool := a.names f.storage.members uuid

/-- The later of two rules; of two at one time the second. -/
def later (best : Option Assignment) (a : Assignment) : Option Assignment :=
  match best with
  | some best => if a.time < best.time then some best else some a
  | none => some a

/-- The latest of the rules that name a device, when groups have these members. -/
def latestNaming? (members : String → List String) (rules : List Assignment) (uuid : String) :
    Option Assignment :=
  (rules.filter (·.names members uuid)).foldl later none

/-- The latest of the rules that name a device. -/
def placing? (f : Fleet) (rules : List Assignment) (uuid : String) : Option Assignment :=
  latestNaming? f.storage.members rules uuid

/-- Where rules place the devices that work for no instance, when groups have these members. -/
def placementsAmong (f : Fleet) (members : String → List String) (rules : List Assignment) :
    List Move :=
  (f.devices.rows.filter (·.instanceName.isNone)).filterMap fun d =>
    (latestNaming? members rules d.uuid).map fun a => ⟨d.uuid, a.target⟩

/-- Where rules place the devices that work for no instance. -/
def placements (f : Fleet) (rules : List Assignment) : List Move :=
  f.placementsAmong f.storage.members rules

/-- Places the devices that work for no instance; answers how many were placed. -/
def placeAll (f : Fleet) (rules : List Assignment) : Except Halt Nat × Fleet :=
  f.moveAll (some .startup) (f.placements rules)

end Fleet

end ScanFleet
