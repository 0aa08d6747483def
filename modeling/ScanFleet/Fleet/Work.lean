import ScanFleet.Fleet.Basic
import ScanFleet.Job.Clock
import ScanFleet.Model.Status

set_option autoImplicit false

/-! # The work of a fleet

Devices check in for tasks and report what they met, and an administrator asks how instances are
doing. A job handle stays with the job that was live when it was taken. -/

namespace ScanFleet

theorem Job.key_addSighting (now : Instant) (s : Sighting) (j : Job) :
    key (j.addSighting s now) = key j := by
  rw [addSighting]
  split
  · rfl
  · rfl

theorem Job.key_addIv (now : Instant) (s : Sighting) (j : Job) :
    key (j.addIv s now) = key j := by
  rw [addIv]
  split
  · rfl
  · rfl

namespace Fleet

/-! ## Check-ins -/

/-- Notes that a job completed its pass. -/
def noteCompletion (f : Fleet) (name : String) : Fleet :=
  { f with completions := f.completions ++ [name] }

/-- The task of a device that checks in by the clock: an idle one when no job is live for it. Nothing
    when the job needs the clock and it shows nothing, or when it leaves the calendar of the job. -/
def checkIn (f : Fleet) (uuid : String) (account : Option String) (now : Instant) :
    Option Task × Fleet :=
  match f.jobOf? uuid with
  | none => (some .idle, f)
  | some job =>
    let (handout, job) := job.checkIn account now
    let f := { f with jobs := f.jobs.insert job }
    match handout with
    | none => (none, f)
    | some handout =>
      (some handout.task, if handout.completes then f.noteCompletion job.name else f)

/-- Offers a sighting to every job that keeps an encounter queue. -/
def addSighting (f : Fleet) (s : Sighting) (now : Instant) : Fleet :=
  { f with jobs := f.jobs.map (·.addSighting s now) (Job.key_addSighting now s) }

/-- Reports a checked encounter to every job that keeps an encounter queue. -/
def addIv (f : Fleet) (s : Sighting) (now : Instant) : Fleet :=
  { f with jobs := f.jobs.map (·.addIv s now) (Job.key_addIv now s) }

/-- The queued sightings of an instance; none when its job keeps no queue. -/
def queue (f : Fleet) (name : String) : List Sighting :=
  ((f.jobs.get? name).bind Job.queue?).getD []

/-! ## Statuses -/

/-- The status of an instance without a live job. -/
def startingStatus : String := "Starting…"

/-- How an instance is doing, if there is one. -/
def status? (f : Fleet) (name : String) (now : Instant) : Option String × Fleet :=
  match f.jobs.get? name with
  | some job =>
    let (status, job) := job.status now
    (some status, { f with jobs := f.jobs.insert job })
  | none => (if f.definitions.has name then some startingStatus else none, f)

/-- How instances are doing, and how many devices work for each. -/
def statusesOf (f : Fleet) (now : Instant) : List Instance → List InstanceStatus × Fleet
  | [] => ([], f)
  | definition :: rest =>
    let (status, f) := f.status? definition.name now
    let (others, f) := f.statusesOf now rest
    (⟨definition.name, definition.kind, status.getD startingStatus,
        (f.crew definition.name).length⟩ :: others, f)

/-- How all defined instances are doing, in order of their names. -/
def statuses (f : Fleet) (now : Instant) : List InstanceStatus × Fleet :=
  f.statusesOf now f.definitions.rows

/-! ## Job handles -/

/-- A hold on a job: its name, and how many jobs of that name were retired before. -/
structure JobHandle where
  name : String
  generation : Nat
  deriving DecidableEq, Repr

/-- The retired jobs of an instance, in order. -/
def formerJobs (f : Fleet) (name : String) : List Job := f.retired.filter (·.name == name)

/-- Takes hold of the live job that a device works for. -/
def hold? (f : Fleet) (uuid : String) : Option JobHandle :=
  (f.jobOf? uuid).map fun job => ⟨job.name, (f.formerJobs job.name).length⟩

/-- The job that is held, live or retired. -/
def held? (f : Fleet) (h : JobHandle) : Option Job :=
  ((f.formerJobs h.name)[h.generation]?).or (f.jobs.get? h.name)

/-- Puts a job in the place of the retired job of its name and of the given generation. -/
def replaceFormer (job : Job) : Nat → List Job → List Job
  | _, [] => []
  | n, first :: rest =>
    if first.name ≠ job.name then first :: replaceFormer job n rest
    else
      match n with
      | 0 => job :: rest
      | n + 1 => first :: replaceFormer job n rest

/-- Keeps what became of a held job. -/
def keepHeld (f : Fleet) (h : JobHandle) (job : Job) : Fleet :=
  if h.generation < (f.formerJobs h.name).length then
    { f with retired := replaceFormer job h.generation f.retired }
  else { f with jobs := f.jobs.insert job }

end Fleet

end ScanFleet
