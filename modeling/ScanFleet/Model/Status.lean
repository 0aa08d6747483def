import ScanFleet.Model.Instance

set_option autoImplicit false

/-! # Instance statuses -/

namespace ScanFleet

/-- How an instance is doing. -/
structure InstanceStatus where
  name : String
  kind : JobKind
  status : String
  /-- How many devices work for it. -/
  devices : Nat
  deriving DecidableEq, Inhabited

instance : JsonForm InstanceStatus where
  toJson s := .object
    [("name", toJson s.name), ("instance_type", toJson s.kind), ("status", toJson s.status),
     ("device_count", .int s.devices)]
  ofJson? j := do
    let r ← j.record? ["name", "instance_type", "status", "device_count"]
    let devices : UInt64 ← r.required "device_count"
    return ⟨← r.required "name", ← r.required "instance_type", ← r.required "status",
      devices.toNat⟩

end ScanFleet
