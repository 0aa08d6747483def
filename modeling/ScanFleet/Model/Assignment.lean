import ScanFleet.Calendar.Instant
import ScanFleet.Json.Form

set_option autoImplicit false

/-! # Assignments

An assignment is a rule that moves a device, or a group of devices, onto an instance: at a second
of the local day, or, with time zero, when the instance it is sourced on completes its pass. A rule
with a date holds on that date only. -/

namespace ScanFleet

/-- A date is written as a text. -/
instance : JsonForm Date where
  toJson date := .text (String.ofList date.text)
  ofJson?
    | .text s => Date.ofText? s.toList
    | _ => none

/-- A rule that moves devices onto an instance. -/
structure Assignment where
  id : UInt32
  /-- The instance that devices are moved onto. -/
  target : String
  /-- The instance that devices have to be on. -/
  source : Option String := none
  device : Option String := none
  group : Option String := none
  /-- The second of the local day; zero waits for a completion. -/
  time : UInt32 := 0
  date : Option Date := none
  enabled : Bool := true
  deriving DecidableEq, Inhabited

/-- The devices that an assignment is about. -/
inductive AssignmentScope where
  | device (uuid : String)
  | group (name : String)
  | unspecified
  deriving DecidableEq, Repr

/-- Why an assignment is refused. -/
inductive AssignmentFault where
  | emptyTarget
  | deviceAndGroup (id : UInt32)
  | pastMidnight (id time : UInt32)
  deriving DecidableEq, Repr

/-- The text of a fault. -/
def AssignmentFault.text : AssignmentFault → String
  | .emptyTarget => "target instance cannot be empty"
  | .deviceAndGroup id =>
    "assignment " ++ toString id ++ " targets both a device and a device group"
  | .pastMidnight id time =>
    "assignment " ++ toString id ++ " time " ++ toString time ++ " is past midnight"

namespace Assignment

/-- Assignments are filed under their ids. -/
instance : Keyed Assignment UInt32 := ⟨Assignment.id⟩

/-- Whether the rule waits for a completion. -/
def onCompletion (a : Assignment) : Bool := a.time == 0

/-- Whether the rule holds on a date. -/
def holdsOn (a : Assignment) (today : Date) : Bool := a.date.all (· == today)

/-- The devices that the rule is about: a device goes before a group. -/
def scope (a : Assignment) : AssignmentScope :=
  match a.device, a.group with
  | some uuid, _ => .device uuid
  | none, some name => .group name
  | none, none => .unspecified

/-- Whether the rule names a device, itself or through a group, when groups have these members. -/
def names (a : Assignment) (members : String → List String) (uuid : String) : Bool :=
  match a.scope with
  | .device other => other == uuid
  | .group group => (members group).contains uuid
  | .unspecified => false

/-- Why the rule is refused, if it is. -/
def fault? (a : Assignment) : Option AssignmentFault :=
  if a.target = "" then some .emptyTarget
  else if a.device.isSome ∧ a.group.isSome then some (.deviceAndGroup a.id)
  else if secondsPerDay ≤ a.time.toNat then some (.pastMidnight a.id a.time)
  else none

/-- Whether the rule is accepted. -/
def IsValid (a : Assignment) : Prop := a.fault? = none

instance (a : Assignment) : Decidable a.IsValid := by unfold IsValid; infer_instance

instance : JsonForm Assignment where
  toJson a := .object
    [("id", toJson a.id), ("instance_name", toJson a.target),
     ("source_instance_name", toJson a.source), ("device_uuid", toJson a.device),
     ("device_group_name", toJson a.group), ("time", toJson a.time), ("date", toJson a.date),
     ("enabled", toJson a.enabled)]
  ofJson? j := do
    let r ← j.record? ["id", "instance_name", "source_instance_name", "device_uuid",
      "device_group_name", "time", "date", "enabled"]
    return {
      id := ← r.required "id"
      target := ← r.required "instance_name"
      source := ← r.optional "source_instance_name"
      device := ← r.optional "device_uuid"
      group := ← r.optional "device_group_name"
      time := ← r.withDefault "time" 0
      date := ← r.optional "date"
      enabled := ← r.withDefault "enabled" true }

end Assignment

end ScanFleet
