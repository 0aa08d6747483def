import ScanFleet.Calendar.Zone
import ScanFleet.Store.Storage

set_option autoImplicit false

/-! # Lookups

Lookups remember the geofences and IV lists that were read from storage. A row that is missing, or
that could not be read, is not remembered. -/

namespace ScanFleet

/-- The rows that are remembered, and the zones. -/
structure Lookups where
  geofences : Table Geofence := .empty
  ivLists : Table IvList := .empty
  zones : ZoneTable := .empty

instance : Inhabited Lookups := ⟨{}⟩

namespace Lookups

/-- A row by its name: as it is remembered, or else as it is read, and then it is remembered. -/
def lookUp {α : Type} [Keyed α String] (remembered : Table α)
    (read : String → Except FleetError (Option α)) (missing : String → FleetError) (name : String) :
    Except FleetError α × Table α :=
  match remembered.get? name with
  | some row => (.ok row, remembered)
  | none =>
    match read name with
    | .error error => (.error error, remembered)
    | .ok none => (.error (missing name), remembered)
    | .ok (some row) => (.ok row, remembered.insert row)

/-- The geofence with the given name. -/
def geofence (l : Lookups) (storage : Storage) (name : String) :
    Except FleetError Geofence × Lookups :=
  (lookUp l.geofences storage.geofence? .geofenceNotFound name).map id
    fun geofences => { l with geofences }

/-- The IV list with the given name. -/
def ivList (l : Lookups) (storage : Storage) (name : String) :
    Except FleetError IvList × Lookups :=
  (lookUp l.ivLists storage.ivList? .ivListNotFound name).map id fun ivLists => { l with ivLists }

/-- The payloads of geofences, in the order of their names; the first that fails decides. -/
def payloads (l : Lookups) (storage : Storage) : List String → Except FleetError (List Json) × Lookups
  | [] => (.ok [], l)
  | name :: rest =>
    match l.geofence storage name with
    | (.error error, l) => (.error error, l)
    | (.ok geofence, l) =>
      match l.payloads storage rest with
      | (.error error, l) => (.error error, l)
      | (.ok payloads, l) => (.ok (geofence.area :: payloads), l)

/-- An area that cannot be decoded. -/
def areaError (fault : AreaFault) : FleetError := .model (.invalidArea fault.text)

/-- The area of an instance, decoded from all its geofences in order. -/
def area (l : Lookups) (storage : Storage) (i : Instance) : Except FleetError Area × Lookups :=
  if i.settings.geofences = [] then
    (.error (.model (.invalidArea ("instance '" ++ i.name ++ "' references no geofence"))), l)
  else
    match l.payloads storage i.settings.geofences with
    | (.error error, l) => (.error error, l)
    | (.ok payloads, l) => ((Area.decode i.kind.shape payloads).mapError areaError, l)

/-- The IV list of an instance, if it names one. -/
def ivListOf (l : Lookups) (storage : Storage) (i : Instance) :
    Except FleetError (Option IvList) × Lookups :=
  match i.settings.ivList with
  | none => (.ok none, l)
  | some name => (l.ivList storage name).map (·.map some) id

/-- Seconds east of the zone of an instance. An unknown zone counts as none. -/
def offset? (l : Lookups) (i : Instance) : Option Int := i.settings.timezone.bind l.zones.offset?

/-- Forgets every row. -/
def refresh (l : Lookups) : Lookups := { l with geofences := .empty, ivLists := .empty }

/-- Forgets a geofence. -/
def forgetGeofence (l : Lookups) (name : String) : Lookups :=
  { l with geofences := l.geofences.erase name }

/-- Forgets an IV list. -/
def forgetIvList (l : Lookups) (name : String) : Lookups :=
  { l with ivLists := l.ivLists.erase name }

/-- Forgets the geofences and the IV list of an instance. -/
def forget (l : Lookups) (i : Instance) : Lookups :=
  let l := i.settings.geofences.foldl forgetGeofence l
  match i.settings.ivList with
  | some name => l.forgetIvList name
  | none => l

end Lookups

end ScanFleet
