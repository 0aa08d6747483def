import ScanFleet.Decimal.Fixed
import ScanFleet.Iv.Desk
import ScanFleet.Job.Patrol
import ScanFleet.Model.Instance

set_option autoImplicit false

/-! # Jobs

A job is the live work of one instance. It hands a task to each device that checks in, tells how it
is doing, and sometimes reports that its coverage is complete. Every job walks a patrol; what a task
is, and what else the job keeps, is its duty. A job that was at work when the clock left the calendar,
or showed nothing, is broken: it hands out idle tasks and its patrol takes no more orders, but an
encounter queue works on. -/

namespace ScanFleet

/-- How far a bootstrap job has come. -/
structure BootstrapState where
  visited : Nat := 0
  completed : Bool := false
  deriving DecidableEq, Repr, Inhabited

/-- What a quest job keeps. -/
structure QuestState where
  /-- Seconds east of the zone whose days the job follows. -/
  offset : Int
  /-- The local date of the current pass. -/
  today : Date
  /-- How many quests each account was given on the current date. -/
  spins : Table (String × Nat) := .empty
  /-- How many passes are complete. -/
  passes : Nat := 0

/-- What a job does at the places of its patrol. -/
inductive Duty where
  | circle
  | spawnpoints
  | bootstrap (state : BootstrapState)
  | quests (state : QuestState)
  | encounters (desk : IvDesk) (store : EncounterStore)

/-- The live work of an instance. -/
structure Job where
  /-- The instance that the job was built from. -/
  definition : Instance
  area : Area
  patrol : Patrol
  duty : Duty
  /-- Whether the clock of the job left the calendar. -/
  broken : Bool := false

/-- What a device gets when it checks in. -/
structure Handout where
  task : Task
  /-- Whether the task completes the coverage of the job. -/
  completes : Bool := false
  deriving DecidableEq, Inhabited

namespace Job

/-- The name of the instance. -/
def name (j : Job) : String := j.definition.name

/-- The kind of the instance. -/
def kind (j : Job) : JobKind := j.definition.kind

/-- Jobs are filed under the names of their instances. -/
instance : Keyed Job String := ⟨Job.name⟩

/-- Whether the job keeps an encounter queue. -/
def isIv (j : Job) : Bool :=
  match j.duty with
  | .encounters _ _ => true
  | _ => false

/-- Whether the job hands out nothing until it is reloaded. -/
def stopped (j : Job) : Bool := j.patrol.stopped

/-- A scan at a place, for the accounts that the instance wants. -/
def scan (j : Job) (action : ScanAction) (place : Coordinate) : Task :=
  .scan action place j.definition.settings.minLevel j.definition.settings.maxLevel

/-! ## Orders -/

/-- Gives an order to the patrol, which a broken job does not take. -/
def order (j : Job) (f : Patrol → Patrol) : Job :=
  if j.broken then j else { j with patrol := f j.patrol }

/-- Hands out nothing more. -/
def stop (j : Job) : Job := j.order Patrol.stop

/-- Attaches a device. -/
def attach (j : Job) (uuid : String) : Job := j.order (·.attach uuid)

/-- Detaches a device. -/
def detach (j : Job) (uuid : String) : Job := j.order (·.detach uuid)

/-- An order changes the patrol and nothing else. -/
theorem order_eq (j : Job) (f : Patrol → Patrol) :
    j.order f = { j with patrol := (j.order f).patrol } := by
  rw [order]
  split
  · rfl
  · rfl

@[simp] theorem key_order (j : Job) (f : Patrol → Patrol) : key (j.order f) = key j := by
  rw [order_eq]
  rfl

/-- Empties the encounter queue, if the duty has one. -/
def clearQueue : Duty → Duty
  | .encounters desk store => .encounters desk (IvDesk.reset store)
  | duty => duty

/-- What the duty forgets when coverage starts over. Passes and the date of a quest job stay. -/
def restartDuty : Duty → Duty
  | .bootstrap _ => .bootstrap {}
  | .quests state => .quests { state with spins := .empty }
  | duty => clearQueue duty

/-- Starts coverage over in the area that the job was built with. Of a broken job only the encounter
    queue starts over. -/
def reload (j : Job) : Job :=
  if j.broken then { j with duty := clearQueue j.duty }
  else { j with patrol := j.patrol.rebuild j.area.route, duty := restartDuty j.duty }

/-! ## Tasks -/

/-- Hands out the next place of the patrol as a scan. -/
def patrolTask (j : Job) (action : ScanAction) : Handout × Job :=
  match j.patrol.advance with
  | (some step, patrol) => ({ task := j.scan action step.place }, { j with patrol })
  | (none, _) => ({ task := .idle }, j)

/-- Whether a circle looks for raids. -/
def forRaids : JobKind → Bool
  | .circleRaid | .smartCircleRaid => true
  | _ => false

/-- Counts a visited place; the first complete lap completes the coverage. -/
def bootstrapTask (j : Job) (state : BootstrapState) : Handout × Job :=
  match j.patrol.advance with
  | (none, _) => ({ task := .idle }, j)
  | (some step, patrol) =>
    let settings := j.definition.settings
    let minLevel := if settings.fastBootstrap then 0 else settings.minLevel
    let task := Task.scan .bootstrap step.place minLevel settings.maxLevel
    if state.completed then ({ task }, { j with patrol })
    else
      ({ task, completes := step.completesLap },
        { j with patrol, duty := .bootstrap ⟨state.visited + 1, step.completesLap⟩ })

/-- The quest state and patrol on a local date: another date than the last starts a new pass. -/
def questDay (patrol : Patrol) (state : QuestState) (today : Date) : Patrol × QuestState :=
  if today = state.today then (patrol, state)
  else (patrol.reset, { state with today, spins := .empty })

/-- Counts a quest against the limit of an account; nothing when the account has reached it. -/
def spin? (limit : Option UInt32) (account : Option String) (spins : Table (String × Nat)) :
    Option (Table (String × Nat)) :=
  match limit, account with
  | some limit, some account =>
    let given := ((spins.get? account).map Prod.snd).getD 0
    if limit.toNat ≤ given then none else some (spins.insert (account, given + 1))
  | _, _ => some spins

/-- Hands out the next quest stop of a local date. Complete laps complete the coverage. -/
def questTask (j : Job) (state : QuestState) (today : Date) (account : Option String) :
    Handout × Job :=
  let (patrol, state) := questDay j.patrol state today
  match spin? j.definition.settings.spinLimit account state.spins with
  | none => ({ task := .idle }, { j with patrol, duty := .quests state })
  | some spins =>
    match patrol.advance with
    | (none, patrol) => ({ task := .idle }, { j with patrol, duty := .quests { state with spins } })
    | (some step, patrol) =>
      let passes := if step.completesLap then state.passes + 1 else state.passes
      ({ task := j.scan .quest step.place, completes := step.completesLap },
        { j with patrol, duty := .quests { state with spins, passes } })

/-- The next encounter to check, or else the next place of the patrol. -/
def ivTask (j : Job) (desk : IvDesk) (store : EncounterStore) (now : Instant) : Handout × Job :=
  let settings := j.definition.settings
  match IvDesk.nextTask store settings.minLevel settings.maxLevel now with
  | (some task, store) => ({ task }, { j with duty := .encounters desk store })
  | (none, store) => patrolTask { j with duty := .encounters desk store } .pokemon

/-- What a device gets that checks in with an account; nothing when the instant lies beyond the calendar
    of the zone of a quest job, which breaks the job. -/
def handOut (j : Job) (account : Option String) (now : Instant) : Option Handout × Job :=
  if j.broken ∨ j.stopped then (some { task := .idle }, j)
  else
    match j.duty with
    | .circle => (j.patrolTask (if forRaids j.kind then .raid else .pokemon)).map some id
    | .spawnpoints => (j.patrolTask .spawnpoint).map some id
    | .bootstrap state => (j.bootstrapTask state).map some id
    | .encounters desk store => (j.ivTask desk store now).map some id
    | .quests state =>
      match now.localDate? state.offset with
      | none => (none, { j with broken := true })
      | some today => (j.questTask state today account).map some id

/-! ## Encounters -/

/-- Offers a sighting to a job that keeps an encounter queue. -/
def addSighting (j : Job) (s : Sighting) (now : Instant) : Job :=
  match j.duty with
  | .encounters desk store =>
    let (desk, store) := desk.offer store s now
    { j with duty := .encounters desk store }
  | _ => j

/-- Reports a checked encounter to a job that keeps an encounter queue. -/
def addIv (j : Job) (s : Sighting) (now : Instant) : Job :=
  match j.duty with
  | .encounters desk store => { j with duty := .encounters desk (desk.note store s now) }
  | _ => j

/-- The queued sightings, if the job keeps a queue. -/
def queue? (j : Job) : Option (List Sighting) :=
  match j.duty with
  | .encounters _ store => some (IvDesk.queueOrEmpty store)
  | _ => none

/-! ## Status -/

/-- The share of the route that a bootstrap job has visited, in percent. -/
def percentText (visited total : Nat) : String :=
  Decimal.onePlaceText (Float.ofNat visited * 100 / Float.ofNat (max total 1))

/-- How the job is doing. Counting the checks of the last hour forgets older ones. -/
def status (j : Job) (now : Instant) : String × Job :=
  let length := j.patrol.route.length
  if j.broken then ("Error: " ++ (JobError.poisoned j.name).message, j)
  else if j.stopped then ("Stopped", j)
  else
    match j.duty with
    | .circle =>
      (s!"{j.patrol.crew.size} devices, lap {j.patrol.laps + 1}, point {j.patrol.cursor + 1}/{length}",
        j)
    | .spawnpoints =>
      (s!"Searching: {j.patrol.cursor}/{length} points, {j.patrol.laps} laps", j)
    | .bootstrap state =>
      if state.completed then (s!"Done: {length}/{length}", j)
      else
        let percent := percentText state.visited length
        (s!"Bootstrapping: {state.visited}/{length} ({percent}%)", j)
    | .quests state =>
      let hour := String.ofList (paddedText 2 (now.localHour state.offset))
      (s!"Quests: stop {j.patrol.cursor}/{length}, passes {state.passes}, local hour {hour}", j)
    | .encounters desk store =>
      let (text, store) := desk.status store now
      (text, { j with duty := .encounters desk store })

end Job

end ScanFleet
