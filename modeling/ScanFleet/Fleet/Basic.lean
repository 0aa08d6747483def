import ScanFleet.Fleet.Metrics
import ScanFleet.Job.Build
import ScanFleet.Store.Lookups

set_option autoImplicit false

/-! # Fleets

A fleet knows its devices, the definitions of its instances and the live job of each instance. A
device works for at most one instance, and is attached to the job of that instance. Jobs that are no
longer live are kept as retired ones, since somebody may still hold on to them. -/

namespace ScanFleet

/-- Why an operation did not come to a good end. -/
inductive Halt where
  | failed (error : FleetError)
  /-- It waits for a write that hangs. -/
  | stalled
  /-- The clock shows nothing, or a local date lies beyond the calendar. -/
  | beyondCalendar
  deriving DecidableEq, Repr, Inhabited

/-- Devices, definitions and jobs. -/
structure Fleet where
  storage : Storage := {}
  lookups : Lookups := {}
  /-- Who builds the jobs. -/
  roster : BuilderRoster := .builtin
  /-- How many encounters an instance queues that does not say so itself. -/
  queueLimit : UInt64 := defaultQueueLimit
  metrics : Metrics := {}
  definitions : Table Instance := .empty
  /-- The live jobs. -/
  jobs : Table Job := .empty
  /-- The jobs that were live once, in the order in which they were retired. -/
  retired : List Job := []
  devices : Table Device := .empty
  /-- The instances that completed their passes, not yet told to anyone, in order. -/
  completions : List String := []

instance : Inhabited Fleet := ⟨{}⟩

namespace Fleet

/-! ## Devices and jobs -/

/-- The devices that work for an instance, in order of their uuids. -/
def crew (f : Fleet) (name : String) : List Device := f.devices.rows.filter (·.worksFor name)

/-- The live job that a device works for. -/
def jobOf? (f : Fleet) (uuid : String) : Option Job :=
  ((f.devices.get? uuid).bind (·.instanceName)).bind f.jobs.get?

/-- Changes the live job of an instance, if there is one. -/
def onJob (f : Fleet) (name : String) (change : Job → Job) : Fleet :=
  match f.jobs.get? name with
  | some job => { f with jobs := f.jobs.insert (change job) }
  | none => f

/-- Attaches a device to the live job of an instance. -/
def attach (f : Fleet) (name : Option String) (uuid : String) : Fleet :=
  match name with
  | some name => f.onJob name (·.attach uuid)
  | none => f

/-- Detaches a device from the live job of an instance. -/
def detach (f : Fleet) (name : Option String) (uuid : String) : Fleet :=
  match name with
  | some name => f.onJob name (·.detach uuid)
  | none => f

/-- Makes a job live, with the devices that work for its instance. The job that was live before is
    stopped and retired. -/
def register (f : Fleet) (job : Job) : Fleet :=
  let crewed := (f.crew job.name).foldl (fun job device => job.attach device.uuid) job
  let former := (f.jobs.get? job.name).map Job.stop
  { f with jobs := f.jobs.insert crewed, retired := f.retired ++ former.toList }

/-- Changing a job changes the jobs and nothing else. -/
theorem onJob_eq (f : Fleet) (name : String) (change : Job → Job) :
    f.onJob name change = { f with jobs := (f.onJob name change).jobs } := by
  rw [onJob]
  split
  · rfl
  · rfl

/-- Changing the job of an instance changes what is found under its name. -/
theorem get?_onJob (f : Fleet) (name : String) {change : Job → Job}
    (h : ∀ job, key (change job) = key job) (k : String) :
    (f.onJob name change).jobs.get? k
      = if k = name then (f.jobs.get? k).map change else f.jobs.get? k := by
  rw [onJob]
  split <;> rename_i hj
  · rw [Table.get?_insert, h, Table.key_of_get? hj]
    by_cases hk : k = name
    · simp [hk, hj]
    · simp [hk, Ne.symm hk]
  · by_cases hk : k = name
    · simp [hk, hj]
    · simp [hk]

theorem attach_eq (f : Fleet) (name : Option String) (uuid : String) :
    f.attach name uuid = { f with jobs := (f.attach name uuid).jobs } := by
  cases name with
  | none => rfl
  | some name => exact f.onJob_eq name _

theorem detach_eq (f : Fleet) (name : Option String) (uuid : String) :
    f.detach name uuid = { f with jobs := (f.detach name uuid).jobs } := by
  cases name with
  | none => rfl
  | some name => exact f.onJob_eq name _

theorem get?_attach (f : Fleet) (name uuid k : String) :
    (f.attach (some name) uuid).jobs.get? k
      = if k = name then (f.jobs.get? k).map (·.attach uuid) else f.jobs.get? k :=
  f.get?_onJob name (fun job => job.key_order _) k

theorem get?_detach (f : Fleet) (name uuid k : String) :
    (f.detach (some name) uuid).jobs.get? k
      = if k = name then (f.jobs.get? k).map (·.detach uuid) else f.jobs.get? k :=
  f.get?_onJob name (fun job => job.key_order _) k

/-! ## Metrics -/

/-- Shows the numbers of live jobs and of devices. -/
def refreshSize (f : Fleet) : Fleet :=
  { f with metrics := f.metrics.setFleetSize f.jobs.size f.devices.size }

/-- Counts a job that could not be built. -/
def countBuildFailure (f : Fleet) : Fleet := { f with metrics := f.metrics.countBuildFailure }

/-- Counts a device that changed its instance. -/
def countReassignment (f : Fleet) : Fleet := { f with metrics := f.metrics.countReassignment }

/-- Counts an assignment that was fired. -/
def countTrigger (f : Fleet) (trigger : Trigger) : Fleet :=
  { f with metrics := f.metrics.countTrigger trigger }

/-- Counts a tick of the schedule, which takes no time. -/
def countTick (f : Fleet) : Fleet := { f with metrics := f.metrics.countTick 0 }

end Fleet

end ScanFleet
