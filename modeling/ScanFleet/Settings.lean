import ScanFleet.Calendar.Zone

set_option autoImplicit false

/-! # Settings

The settings of a fleet come from named texts, such as the environment of a process. A setting that
is missing or malformed keeps its default, and no interval is shorter than a second. -/

namespace ScanFleet

/-- The settings of a fleet. -/
structure Settings where
  /-- Seconds between two ticks of the schedule. -/
  tickSeconds : Nat := 5
  /-- Seconds between two status reports. -/
  statusSeconds : Nat := 60
  /-- How many encounters an instance queues that does not say so itself. -/
  queueLimit : UInt64 := 100
  seedFile : Option String := none
  zones : ZoneTable := .empty
  deriving DecidableEq, Inhabited

namespace Settings

/-- The names of the texts that settings are read from. -/
def sources : List String :=
  ["SCANMATRIX_TICK_INTERVAL_SECS", "SCANMATRIX_STATUS_INTERVAL_SECS",
   "SCANMATRIX_IV_QUEUE_LIMIT", "SCANMATRIX_SEED_FILE", "SCANMATRIX_TIMEZONES"]

/-- A number of 64 bits, or the default. -/
def number (source : String → Option String) (name : String) (default : Nat) : Nat :=
  match source name with
  | some text => (readNat? (UInt64.size - 1) (trim text.toList)).getD default
  | none => default

/-- Reads the settings from named texts. -/
def read (source : String → Option String) : Settings where
  tickSeconds := max 1 (number source "SCANMATRIX_TICK_INTERVAL_SECS" 5)
  statusSeconds := max 1 (number source "SCANMATRIX_STATUS_INTERVAL_SECS" 60)
  queueLimit := .ofNat (number source "SCANMATRIX_IV_QUEUE_LIMIT" 100)
  seedFile := (source "SCANMATRIX_SEED_FILE").bind fun text =>
    match trim text.toList with
    | [] => none
    | path => some (String.ofList path)
  zones := match source "SCANMATRIX_TIMEZONES" with
    | some text => .read text.toList
    | none => .empty

end Settings

end ScanFleet
