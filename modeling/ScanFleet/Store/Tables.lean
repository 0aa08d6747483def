import ScanFleet.Error
import ScanFleet.Geo.Geofence
import ScanFleet.Json.Reader
import ScanFleet.Model.Device
import ScanFleet.Model.Instance
import ScanFleet.Model.Sighting

set_option autoImplicit false

/-! # Stored tables

The tables of a fleet are filled from a seed: a JSON document that lists their rows. Of several rows
with one key the last stays. -/

namespace ScanFleet

/-- The rows of all tables, in written order. -/
structure Seed where
  instances : List Instance := []
  devices : List Device := []
  groups : List DeviceGroup := []
  assignments : List Assignment := []
  geofences : List Geofence := []
  ivLists : List IvList := []
  deriving Inhabited

namespace Seed

instance : JsonForm Seed where
  toJson s := .object
    [("instances", toJson s.instances), ("devices", toJson s.devices),
     ("device_groups", toJson s.groups), ("assignments", toJson s.assignments),
     ("geofences", toJson s.geofences), ("iv_lists", toJson s.ivLists)]
  ofJson? j := do
    let r ← j.record? ["instances", "devices", "device_groups", "assignments", "geofences",
      "iv_lists"]
    return {
      instances := ← r.withDefault "instances" []
      devices := ← r.withDefault "devices" []
      groups := ← r.withDefault "device_groups" []
      assignments := ← r.withDefault "assignments" []
      geofences := ← r.withDefault "geofences" []
      ivLists := ← r.withDefault "iv_lists" [] }

end Seed

/-- The stored rows of a fleet. -/
structure Tables where
  instances : Table Instance := .empty
  devices : Table Device := .empty
  groups : Table DeviceGroup := .empty
  assignments : Table Assignment := .empty
  geofences : Table Geofence := .empty
  ivLists : Table IvList := .empty

instance : Inhabited Tables := ⟨{}⟩

namespace Tables

/-- Files the rows of a seed. -/
def ofSeed (seed : Seed) : Tables where
  instances := .ofList seed.instances
  devices := .ofList seed.devices
  groups := .ofList seed.groups
  assignments := .ofList seed.assignments
  geofences := .ofList seed.geofences
  ivLists := .ofList seed.ivLists

/-- Reads the tables from the text of a seed. -/
def ofText (text : String) : Except FleetError Tables :=
  match (Json.ofText? text).bind ofJson? with
  | some seed => .ok (ofSeed seed)
  | none => .error (.configuration "Invalid seed data")

/-- Reads the tables from the bytes of a seed file, if there is one; the text is UTF-8. -/
def ofFile (bytes : Option ByteArray) : Except FleetError Tables :=
  match bytes.bind String.fromUTF8? with
  | some text => ofText text
  | none => .error (.configuration "Cannot read seed file")

end Tables

end ScanFleet
