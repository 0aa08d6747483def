import ScanFleet.Station.Run
import Std.Time.Format

set_option autoImplicit false

/-! # The program

Runs a station by the environment: its settings, its seed file and the clock of the machine. Each
status report goes to the error output, a line for each instance. The program runs until it is
interrupted. -/

namespace ScanFleet.Program

/-- The settings that the environment gives. -/
def readSettings : IO Settings := do
  let given ← Settings.sources.mapM fun name => return (name, ← IO.getEnv name)
  return Settings.read fun name => (given.find? fun entry => entry.1 == name).bind (·.2)

/-- The bytes of a file, if it can be read. -/
def readBytes (path : String) : IO (Option ByteArray) := do
  try
    return some (← IO.FS.readBinFile path)
  catch _ =>
    return none

/-- The tables of the seed file; without one there are no rows. -/
def readTables (settings : Settings) : IO (Except FleetError Tables) := do
  match settings.seedFile with
  | some path => return Tables.ofFile (← readBytes path)
  | none => return .ok {}

/-- Sets the clock of a station by the machine. -/
def readClock (s : Station) : IO Station := do
  let time ← Std.Time.DateTime.now
  let now := Instant.ofSeconds time.timestamp.toSecondsSinceUnixEpoch.val
  return { s.setClock now with localOffset := time.offset.second.val }

/-- Writes a line for each instance. -/
def printStatuses (s : Station) : IO Unit :=
  (s.fleet.statuses s.now).1.forM fun status =>
    IO.eprintln (status.name ++ " (" ++ status.kind.name ++ ", " ++ toString status.devices
      ++ " devices): " ++ status.status)

/-- Does the work of each second as it comes. -/
partial def keepRunning (s : Station) : IO Unit := do
  if s.reporting = some 0 then printStatuses s
  let s := s.settle
  IO.sleep 1000
  keepRunning (← readClock s.passSecond)

/-- What went wrong at the start. -/
def haltText : Halt → String
  | .failed error => error.message
  | .stalled => "storage does not answer"
  | .beyondCalendar => "the clock is beyond the calendar"

end ScanFleet.Program

open ScanFleet in
/-- Starts a station and keeps it running. -/
def main : IO UInt32 := do
  let settings ← Program.readSettings
  match ← Program.readTables settings with
  | .error error =>
    IO.eprintln error.message
    return 1
  | .ok tables =>
    let station ← Program.readClock (Station.ofTables tables settings)
    match station.start with
    | (.error halt, _) =>
      IO.eprintln (Program.haltText halt)
      return 1
    | (.ok built, station) =>
      IO.eprintln (toString built ++ " jobs built")
      Program.keepRunning station.startReports
      return 0
