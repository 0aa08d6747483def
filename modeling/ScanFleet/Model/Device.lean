import ScanFleet.Geo.Coordinate

set_option autoImplicit false

/-! # Devices and device groups -/

namespace ScanFleet

/-- A scanning device. -/
structure Device where
  uuid : String
  /-- The instance that the device works for. -/
  instanceName : Option String := none
  account : Option String := none
  location : Option Coordinate := none
  /-- The second of the last check-in. -/
  lastSeen : Option Int64 := none
  /-- Whether the device is about to change its account. -/
  switching : Bool := false
  deriving DecidableEq, Inhabited

namespace Device

instance : Keyed Device String := ⟨Device.uuid⟩

/-- Whether the device works for the instance. -/
def worksFor (d : Device) (name : String) : Bool := d.instanceName == some name

/-- The device at work for another instance, or for none. -/
def assign (d : Device) (name : Option String) : Device := { d with instanceName := name }

@[simp] theorem key_assign (d : Device) (name : Option String) : key (d.assign name) = key d := rfl

instance : JsonForm Device where
  toJson d := .object
    [("uuid", toJson d.uuid), ("instance_name", toJson d.instanceName),
     ("account_username", toJson d.account), ("last_location", toJson d.location),
     ("last_seen", toJson d.lastSeen), ("pending_account_switch", toJson d.switching)]
  ofJson? j := do
    let r ← j.record? ["uuid", "instance_name", "account_username", "last_location", "last_seen",
      "pending_account_switch"]
    return {
      uuid := ← r.required "uuid"
      instanceName := ← r.optional "instance_name"
      account := ← r.optional "account_username"
      location := ← r.optional "last_location"
      lastSeen := ← r.optional "last_seen"
      switching := ← r.withDefault "pending_account_switch" false }

end Device

/-- A named list of devices. -/
structure DeviceGroup where
  name : String
  members : List String := []
  deriving DecidableEq, Repr, Inhabited

namespace DeviceGroup

instance : Keyed DeviceGroup String := ⟨DeviceGroup.name⟩

instance : JsonForm DeviceGroup where
  toJson g := .object [("name", toJson g.name), ("devices", toJson g.members)]
  ofJson? j := do
    let r ← j.record? ["name", "devices"]
    return ⟨← r.required "name", ← r.withDefault "devices" []⟩

end DeviceGroup

end ScanFleet
