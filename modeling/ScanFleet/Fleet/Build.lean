import ScanFleet.Fleet.Basic

set_option autoImplicit false

/-! # Building the jobs of a fleet

The plan of a job is looked up piece by piece: its area, then its IV list, then its zone. The first
piece that fails decides. -/

namespace ScanFleet

/-- Why a job was not built, seen from the fleet. -/
def BuildFault.halt : BuildFault → Halt
  | .refused error => .failed (.job error)
  | .beyondCalendar => .beyondCalendar

/-- The definition with a queue limit, its own or the given one. -/
def Instance.withQueueLimit (i : Instance) (limit : UInt64) : Instance :=
  { i with settings :=
      { i.settings with ivQueueLimit := some (i.settings.ivQueueLimit.getD limit) } }

namespace Fleet

/-- Looks up what the job of a definition is built from. -/
def plan (f : Fleet) (definition : Instance) : Except FleetError JobPlan × Lookups :=
  match f.lookups.area f.storage definition with
  | (.error error, lookups) => (.error error, lookups)
  | (.ok area, lookups) =>
    match lookups.ivListOf f.storage definition with
    | (.error error, lookups) => (.error error, lookups)
    | (.ok ivList, lookups) =>
      (.ok { definition := definition.withQueueLimit f.queueLimit, area, ivList,
             offset := lookups.offset? definition }, lookups)

/-- Builds the job of a definition; only the lookups of the fleet change. -/
def build (f : Fleet) (definition : Instance) (now : Instant) : Except Halt Job × Fleet :=
  let (plan, lookups) := f.plan definition
  let answer := match plan with
    | .error error => .error (.failed error)
    | .ok plan => (f.roster.build plan now).mapError BuildFault.halt
  (answer, { f with lookups })

/-- Builds the job of a definition and makes it live. A job that cannot be built is counted, and the job
    that was live before stays. -/
def install (f : Fleet) (definition : Instance) (now : Instant) : Except Halt Unit × Fleet :=
  match f.build definition now with
  | (.ok job, f) => (.ok (), (f.register job).refreshSize)
  | (.error (.failed error), f) => (.error (.failed error), f.countBuildFailure)
  | (.error halt, f) => (.error halt, f)

/-- Builds the jobs of definitions and makes them live; answers how many could be built. -/
def installAll (f : Fleet) (now : Instant) : List Instance → Nat × Fleet
  | [] => (0, f)
  | definition :: rest =>
    match f.build definition now with
    | (.ok job, f) =>
      let (built, f) := (f.register job).installAll now rest
      (built + 1, f)
    | (.error _, f) => f.countBuildFailure.installAll now rest

end Fleet

end ScanFleet
