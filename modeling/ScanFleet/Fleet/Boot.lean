import ScanFleet.Fleet.Instances

set_option autoImplicit false

/-! # Building side by side

When a fleet starts, the builds of its jobs run side by side and share what is remembered of storage. A
build looks up one row after another: it looks for the row among those that are remembered, asks storage
if it is not there, and remembers what it was given. Between any two of these steps other builds may go
on. Builds that have ended are taken in one at a time, whichever comes first: the job is made live, or
the failure is counted. `Fleet.start` is the run in which the builds take turns as wholes. -/

namespace ScanFleet

/-! ## Fetching a row -/

/-- How far the lookup of a row has come. -/
inductive Fetch (α : Type) where
  /-- It looks among the rows that are remembered. -/
  | search
  /-- It asks storage. -/
  | read
  /-- It remembers the row that storage gave. -/
  | remember (row : α)

/-- What a step of a lookup comes to. -/
inductive Fetched (α : Type) where
  | found (row : α)
  | failed (error : FleetError)
  | goesOn (fetch : Fetch α)

/-- The next step of a lookup, and the rows that are remembered after it. -/
def Fetch.step {α : Type} [Keyed α String] (name : String)
    (read : Except FleetError (Option α)) (missing : FleetError) (remembered : Table α) :
    Fetch α → Fetched α × Table α
  | .search =>
    match remembered.get? name with
    | some row => (.found row, remembered)
    | none => (.goesOn .read, remembered)
  | .read =>
    match read with
    | .error error => (.failed error, remembered)
    | .ok none => (.failed missing, remembered)
    | .ok (some row) => (.goesOn (.remember row), remembered)
  | .remember row => (.found row, remembered.insert row)

/-! ## Builds -/

/-- How far the build of a job has come. -/
inductive BuildStage where
  /-- It looks up a geofence, after those with the payloads `found` and before those named `left`. -/
  | geofence (found : List Json) (name : String) (left : List String) (fetch : Fetch Geofence)
  | ivList (area : Area) (name : String) (fetch : Fetch IvList)
  /-- Everything is looked up. -/
  | ready (area : Area) (list : Option IvList)
  | ended (answer : Except Halt Job)

namespace BuildStage

/-- The build of a definition goes on with an area. -/
def withArea (definition : Instance) (area : Area) : BuildStage :=
  match definition.settings.ivList with
  | none => .ready area none
  | some name => .ivList area name .search

/-- The build of a definition goes on with payloads, and looks up those that are left. -/
def withPayloads (definition : Instance) (found : List Json) : List String → BuildStage
  | name :: left => .geofence found name left .search
  | [] =>
    match Area.decode definition.kind.shape found with
    | .error fault => .ended (.error (.failed (Lookups.areaError fault)))
    | .ok area => withArea definition area

/-- An instance without geofences has no area. -/
def noGeofence (definition : Instance) : FleetError :=
  .model (.invalidArea ("instance '" ++ definition.name ++ "' references no geofence"))

/-- The build of a definition before its first step. -/
def opening (definition : Instance) : BuildStage :=
  if definition.settings.geofences = [] then .ended (.error (.failed (noGeofence definition)))
  else withPayloads definition [] definition.settings.geofences

/-- The next step of the build of a definition, and the lookups after it. -/
def step (f : Fleet) (definition : Instance) (now : Instant) : BuildStage → BuildStage × Lookups
  | .geofence found name left fetch =>
    match fetch.step name (f.storage.geofence? name) (.geofenceNotFound name) f.lookups.geofences with
    | (.found row, geofences) =>
      (withPayloads definition (found ++ [row.area]) left, { f.lookups with geofences })
    | (.failed error, geofences) => (.ended (.error (.failed error)), { f.lookups with geofences })
    | (.goesOn fetch, geofences) => (.geofence found name left fetch, { f.lookups with geofences })
  | .ivList area name fetch =>
    match fetch.step name (f.storage.ivList? name) (.ivListNotFound name) f.lookups.ivLists with
    | (.found row, ivLists) => (.ready area (some row), { f.lookups with ivLists })
    | (.failed error, ivLists) => (.ended (.error (.failed error)), { f.lookups with ivLists })
    | (.goesOn fetch, ivLists) => (.ivList area name fetch, { f.lookups with ivLists })
  | .ready area list =>
    let plan : JobPlan :=
      { definition := definition.withQueueLimit f.queueLimit, area, ivList := list,
        offset := f.lookups.offset? definition }
    (.ended ((f.roster.build plan now).mapError BuildFault.halt), f.lookups)
  | .ended answer => (.ended answer, f.lookups)

end BuildStage

/-- A build under way. -/
structure BuildTask where
  definition : Instance
  stage : BuildStage

/-- A fleet while its jobs are built. -/
structure Boot where
  fleet : Fleet
  /-- The builds that were not taken in yet. -/
  tasks : List BuildTask
  /-- The definitions whose builds were taken in, in order. -/
  taken : List Instance := []
  /-- How many of them could be built. -/
  built : Nat := 0

/-- Makes a job live that was built, or counts that it was not. -/
def Fleet.settle (f : Fleet) : Except Halt Job → Fleet
  | .ok job => f.register job
  | .error _ => f.countBuildFailure

namespace Boot

/-- Takes in a build that has ended. -/
def takeIn (b : Boot) (k : Nat) (definition : Instance) (answer : Except Halt Job) : Boot where
  fleet := b.fleet.settle answer
  tasks := b.tasks.eraseIdx k
  taken := b.taken ++ [definition]
  built := if answer.isOk then b.built + 1 else b.built

/-- One of the builds makes its next step, or is taken in when it has ended. -/
def pick (now : Instant) (b : Boot) (k : Nat) : Boot :=
  match b.tasks[k]? with
  | none => b
  | some ⟨definition, .ended answer⟩ => b.takeIn k definition answer
  | some ⟨definition, stage⟩ =>
    let (stage, lookups) := stage.step b.fleet definition now
    { b with fleet := { b.fleet with lookups }, tasks := b.tasks.set k ⟨definition, stage⟩ }

/-- The builds take turns as the schedule says. -/
def run (now : Instant) (b : Boot) (schedule : List Nat) : Boot := schedule.foldl (pick now) b

end Boot

/-- A fleet with what is stored, when the builds of all its jobs are to begin. -/
def Fleet.boot (f : Fleet) : Except FleetError Boot :=
  match f.storage.devices, f.storage.instances with
  | .error error, _ => .error error
  | .ok _, .error error => .error error
  | .ok devices, .ok instances =>
    .ok {
      fleet := { f with
        definitions := instances.foldl Table.insert f.definitions
        devices := devices.foldl Table.insert f.devices }
      tasks := instances.map fun definition => ⟨definition, .opening definition⟩ }

end ScanFleet
