import Mathlib.Data.List.Induction
import ScanFleet.Proofs.Job.Encounters

set_option autoImplicit false

/-! # Rounds

A circle, a search for spawnpoints and a job for individual values make rounds: at every place of their
patrol they scan for the same. What distinguishes them is whether something else can come between. A
circle and a search do nothing else; a job for individual values checks the encounters that wait first,
and goes on with its round when none is left. In all three the number of scans that were handed out
since coverage started over tells the position (`Job.Rounds`), whoever asked for them. -/

namespace ScanFleet

/-! ## Scans -/

/-- Whether the task is to scan a place. -/
def Task.isScan : Task → Bool
  | .scan _ _ _ _ => true
  | _ => false

/-- The scan of a place for the accounts that the instance wants. -/
def Instance.roundScan (i : Instance) (action : ScanAction) (place : Coordinate) : Task :=
  .scan action place i.settings.minLevel i.settings.maxLevel

/-- The check of an encounter for the accounts that the instance wants. -/
def Instance.roundCheck (i : Instance) (s : Sighting) : Task :=
  .checkIv s.place s.encounter s.species i.settings.minLevel i.settings.maxLevel

/-- What is scanned for at every place by the jobs of a builder that make rounds. -/
def JobBuilder.roundAction? (kind : JobKind) : JobBuilder → Option ScanAction
  | .circle => some (if Job.forRaids kind then .raid else .pokemon)
  | .spawnpoint => some .spawnpoint
  | .pokemonIv => some .pokemon
  | .autoQuest | .bootstrap => none

/-- The duties of jobs that make rounds, by their builders. -/
inductive JobBuilder.MakesRounds : JobBuilder → Duty → Prop
  | circle : MakesRounds .circle .circle
  | spawnpoints : MakesRounds .spawnpoint .spawnpoints
  | encounters (desk : IvDesk) (store : EncounterStore) :
    MakesRounds .pokemonIv (.encounters desk store)

/-- The laps that are complete when `k` scans were handed out, as they are counted. -/
def lapsAfter (k length : Nat) : UInt64 := .ofNat (k / length)

/-- What the status of a circle tells when `k` scans were handed out. -/
def circleText (crew k length : Nat) : String :=
  s!"{crew} devices, lap {lapsAfter k length + 1}, point {k % length + 1}/{length}"

/-- What the status of a search for spawnpoints tells when `k` scans were handed out. -/
def searchText (k length : Nat) : String :=
  s!"Searching: {k % length}/{length} points, {lapsAfter k length} laps"

/-- Before the count starts over, the lap that comes next is the one by number. -/
theorem toNat_lapsAfter_succ {k length : Nat} (h : k + 1 < UInt64.size) :
    (lapsAfter k length + 1).toNat = k / length + 1 := by
  have hle : k / length ≤ k := Nat.div_le_self k length
  have hcount : (lapsAfter k length).toNat = k / length := UInt64.toNat_ofNat_of_lt' (by omega)
  rw [UInt64.toNat_add, hcount, UInt64.toNat_one]
  exact Nat.mod_eq_of_lt (by rw [UInt64.size] at h; omega)

theorem toNat_lapsAfter_le (k length : Nat) : (lapsAfter k length).toNat ≤ k :=
  calc (lapsAfter k length).toNat = k / length % 2 ^ 64 := UInt64.toNat_ofNat'
    _ ≤ k / length := Nat.mod_le _ _
    _ ≤ k := Nat.div_le_self k length

/-- Whether a scan is handed out. -/
def JobStep.scans (s : JobStep) : Bool := s.work?.any Task.isScan

/-- The steps since coverage last started over that handed out a scan. -/
def scanned (steps : List JobStep) : List JobStep := (coverage steps).filter (·.scans)

theorem scanned_append_singleton (steps : List JobStep) (s : JobStep) :
    scanned (steps ++ [s])
      = (if s.restarts then [] else scanned steps) ++ if s.scans then [s] else [] := by
  rw [scanned, coverage_append_singleton]
  split
  · rw [List.filter_cons, List.filter_nil, List.nil_append]
  · rw [List.filter_append, List.filter_cons, List.filter_nil, scanned]

theorem scanned_of_restarts {s : JobStep} (hrestarts : s.restarts = true) (hidle : s.scans = false)
    (steps : List JobStep) : scanned (steps ++ [s]) = [] := by
  simp [scanned_append_singleton, hrestarts, hidle]

theorem scanned_of_onward {s : JobStep} (honward : s.restarts = false) (hidle : s.scans = false)
    (steps : List JobStep) : scanned (steps ++ [s]) = scanned steps := by
  simp [scanned_append_singleton, honward, hidle]

theorem scanned_of_scans {s : JobStep} (honward : s.restarts = false) (hscans : s.scans = true)
    (steps : List JobStep) : scanned (steps ++ [s]) = scanned steps ++ [s] := by
  simp [scanned_append_singleton, honward, hscans]

theorem JobStep.Silent.scans {s : JobStep} (h : s.Silent) : s.scans = false := by
  rw [JobStep.scans, h.work]
  rfl

/-- A stop counts until coverage starts over. -/
theorem stop_mem_coverage {s : JobStep} (hrestarts : s.restarts = true ↔ s.act = .reload)
    (steps : List JobStep) : .stop ∈ (coverage (steps ++ [s])).map JobStep.act
      ↔ s.act = .stop ∨ (s.act ≠ .reload ∧ .stop ∈ (coverage steps).map JobStep.act) := by
  rw [coverage_append_singleton]
  split
  · rename_i hrestart
    simp [hrestarts.1 hrestart]
  · rename_i honward
    simp [mt hrestarts.2 honward, or_comm, eq_comm]

theorem length_coverage_le (steps : List JobStep) : (coverage steps).length ≤ steps.length := by
  induction steps using List.reverseRecOn with
  | nil => exact Nat.le_refl 0
  | append_singleton steps s ih =>
    rw [coverage_append_singleton, List.length_append]
    split
    · exact Nat.le_add_left 1 steps.length
    · rw [List.length_append]
      exact Nat.add_le_add_right ih 1

namespace Job

theorem length_steps (j : Job) (acts : List JobAct) : (j.steps acts).length = acts.length := by
  induction acts generalizing j with
  | nil => rfl
  | cons a rest ih => rw [steps, List.length_cons, List.length_cons, ih]

/-! ## Handing out -/

variable {j : Job} {plan : JobPlan} {k : Nat}

/-- The next place of the patrol as a scan. -/
theorem Walks.patrolTask (h : j.Walks plan k) (hroute : plan.area.route ≠ [])
    (hworks : j.stopped = false) (action : ScanAction) :
    ∃ place patrol, plan.area.route[k % plan.area.route.length]? = some place
      ∧ j.patrolTask action
        = ({ task := plan.definition.roundScan action place }, { j with patrol })
      ∧ patrol.stopped = false ∧ patrol.crew = j.patrol.crew
      ∧ ({ j with patrol } : Job).Walks plan (k + 1) := by
  obtain ⟨place, patrol, hplace, hadvance, hstopped, hwalks⟩ := h.advance hroute hworks
  have hcrew := j.patrol.crew_advance
  rw [hadvance] at hcrew
  refine ⟨place, patrol, hplace, ?_, hstopped, hcrew, hwalks j.duty⟩
  rw [Job.patrolTask, hadvance, ← h.definition]
  rfl

/-! ## Encounters that come between -/

/-- The first encounter in the queue that has not despawned. -/
def nextWaiting? (j : Job) (now : Instant) : Option Sighting :=
  (j.queue?.getD []).find? fun s => !s.expired now.seconds

theorem Orderly.nextWaiting?_of_not_isIv (h : j.Orderly) (hiv : j.isIv = false) (now : Instant) :
    j.nextWaiting? now = none := by
  rw [nextWaiting?, h.queue?_getD, waiting_of_not_isIv hiv]
  rfl

/-- The desk has the first encounter checked that has not despawned. -/
theorem Orderly.nextTask_eq (h : j.Orderly) {desk : IvDesk} {store : EncounterStore}
    (hduty : j.duty = .encounters desk store) (now : Instant) :
    (IvDesk.nextTask store j.definition.settings.minLevel j.definition.settings.maxLevel now).1
      = (j.nextWaiting? now).map j.definition.roundCheck := by
  have hnext : j.nextWaiting? now
      = (store.queue.unexpired now.seconds).head?.map (·.sighting) := by
    rw [nextWaiting?, h.queue?_getD, waiting_of_duty hduty, List.find?_map, ← List.head?_filter]
    rfl
  rw [hnext, IvDesk.nextTask, IvOffice.next_eq (h desk store hduty).works]
  cases (store.queue.unexpired now.seconds).head? with
  | none => rfl
  | some e => rfl

/-- A job that makes rounds is as the steps of its run tell. -/
structure Rounds (j : Job) (builder : JobBuilder) (plan : JobPlan) (action : ScanAction)
    (steps : List JobStep) : Prop where
  action_eq : builder.roundAction? plan.definition.kind = some action
  has_route : plan.area.route ≠ []
  walks : j.Walks plan (scanned steps).length
  duty : builder.MakesRounds j.duty
  cycles : Cycles plan.area.route (plan.definition.roundScan action) (scanned steps)
  orderly : j.Orderly
  stopped : j.stopped = true ↔ .stop ∈ (coverage steps).map JobStep.act

variable {j : Job} {builder : JobBuilder} {plan : JobPlan} {action : ScanAction} {steps : List JobStep}

theorem rounds_of_build {clock : Instant}
    (haction : builder.roundAction? plan.definition.kind = some action)
    (hbuild : builder.build plan clock = .ok j) : j.Rounds builder plan action [] := by
  have hduty : ∃ duty, builder.MakesRounds duty ∧ j = plan.job duty := by
    unfold JobBuilder.build at hbuild
    split at hbuild
    · cases hbuild
    · cases builder with
      | circle => exact ⟨_, .circle, (Except.ok.inj hbuild).symm⟩
      | spawnpoint => exact ⟨_, .spawnpoints, (Except.ok.inj hbuild).symm⟩
      | pokemonIv =>
        dsimp only at hbuild
        split at hbuild
        · cases hbuild
        · exact ⟨_, .encounters _ _, (Except.ok.inj hbuild).symm⟩
      | autoQuest | bootstrap => cases haction
  have hroute := JobBuilder.route_ne_nil hbuild
  have horderly := orderly_of_build hbuild
  obtain ⟨duty, hrounds, rfl⟩ := hduty
  refine ⟨haction, hroute, walks_job plan duty, hrounds, cycles_nil, horderly, ?_⟩
  exact ⟨nofun, fun hmem => absurd hmem List.not_mem_nil⟩

/-- A job at work hands out the check of the first encounter that has not despawned, or else the next
    place. -/
theorem Rounds.handOut_eq (h : j.Rounds builder plan action steps) (hworks : j.stopped = false)
    (account : Option String) (time : Instant) :
    ∃ duty, builder.MakesRounds duty ∧ j.handOut account time
      = match j.nextWaiting? time with
        | some waiting => (some { task := plan.definition.roundCheck waiting }, { j with duty })
        | none => (({ j with duty } : Job).patrolTask action).map some id := by
  have hbusy : ¬ (j.broken = true ∨ j.stopped = true) := by simp [h.walks.unbroken, hworks]
  have hkind : j.kind = plan.definition.kind := congrArg Instance.kind h.walks.definition
  have haction := h.action_eq
  have hrounds := h.duty
  generalize hduty : j.duty = duty at hrounds
  cases hrounds with
  | circle =>
    obtain rfl := Option.some.inj haction
    refine ⟨j.duty, h.duty, ?_⟩
    rw [h.orderly.nextWaiting?_of_not_isIv (by rw [isIv, hduty])]
    show j.handOut account time = (j.patrolTask _).map some id
    rw [Job.handOut, if_neg hbusy, hduty, hkind]
  | spawnpoints =>
    obtain rfl := Option.some.inj haction
    refine ⟨j.duty, h.duty, ?_⟩
    rw [h.orderly.nextWaiting?_of_not_isIv (by rw [isIv, hduty])]
    show j.handOut account time = (j.patrolTask _).map some id
    rw [Job.handOut, if_neg hbusy, hduty]
  | encounters desk store =>
    obtain rfl := Option.some.inj haction
    have hnext := h.orderly.nextTask_eq hduty time
    rw [← h.walks.definition, Job.handOut, if_neg hbusy, hduty]
    dsimp only [Job.ivTask]
    generalize IvDesk.nextTask store j.definition.settings.minLevel j.definition.settings.maxLevel time
      = answer at hnext
    obtain ⟨task?, kept⟩ := answer
    refine ⟨.encounters desk kept, .encounters desk kept, ?_⟩
    cases hwaiting : j.nextWaiting? time with
    | none =>
      rw [hwaiting] at hnext
      obtain rfl : task? = none := hnext
      rfl
    | some waiting =>
      rw [hwaiting] at hnext
      obtain rfl : task? = some (j.definition.roundCheck waiting) := hnext
      rfl

/-- What a job at work does when a device checks in. While no encounter waits it hands out the scan of
    the next place. Otherwise the first that waits is to be checked, and the patrol stays. -/
theorem Rounds.handOut (h : j.Rounds builder plan action steps) (hworks : j.stopped = false)
    (account : Option String) (time : Instant) :
    ∃ duty, builder.MakesRounds duty
      ∧ ((j.nextWaiting? time = none ∧ ∃ place patrol,
            plan.area.route[(scanned steps).length % plan.area.route.length]? = some place
            ∧ j.handOut account time
              = (some { task := plan.definition.roundScan action place }, { j with patrol, duty })
            ∧ patrol.stopped = false ∧ patrol.crew = j.patrol.crew
            ∧ ({ j with patrol, duty } : Job).Walks plan ((scanned steps).length + 1))
        ∨ ∃ waiting, j.nextWaiting? time = some waiting ∧ j.handOut account time
          = (some { task := plan.definition.roundCheck waiting }, { j with duty })) := by
  obtain ⟨duty, hduty, hout⟩ := h.handOut_eq hworks account time
  refine ⟨duty, hduty, ?_⟩
  cases hwaiting : j.nextWaiting? time with
  | none =>
    obtain ⟨place, patrol, hplace, htask, hstopped, hcrew, hwalks⟩ :=
      (h.walks.with_duty duty).patrolTask h.has_route hworks action
    rw [hwaiting] at hout
    refine .inl ⟨rfl, place, patrol, hplace, ?_, hstopped, hcrew, hwalks⟩
    rw [hout]
    dsimp only
    rw [htask]
    rfl
  | some waiting =>
    rw [hwaiting] at hout
    exact .inr ⟨waiting, rfl, hout⟩

/-! ## Acts -/

theorem makesRounds_restartDuty {duty : Duty} (h : builder.MakesRounds duty) :
    builder.MakesRounds (restartDuty duty) := by
  cases h with
  | circle => exact .circle
  | spawnpoints => exact .spawnpoints
  | encounters desk store => exact .encounters desk _

/-- Sightings and checks change the queue at most. -/
theorem makesRounds_report (h : builder.MakesRounds j.duty) (s : Sighting) (time : Instant) :
    builder.MakesRounds (j.addSighting s time).duty ∧ builder.MakesRounds (j.addIv s time).duty := by
  cases hiv : j.isIv with
  | false =>
    rw [j.addSighting_of_not_isIv hiv, j.addIv_of_not_isIv hiv]
    exact ⟨h, h⟩
  | true =>
    obtain ⟨desk, store, hduty⟩ := exists_duty_of_isIv hiv
    rw [hduty] at h
    rw [Job.addSighting, Job.addIv, hduty]
    cases h
    exact ⟨.encounters _ _, .encounters _ _⟩

/-- A job that is not broken takes every order. -/
theorem order_of_unbroken (h : j.broken = false) (f : Patrol → Patrol) :
    j.order f = { j with patrol := f j.patrol } := by
  rw [order, h, if_neg Bool.false_ne_true]

/-- What an act leaves of a job that makes rounds: its duty, whether it is stopped, and its crew. -/
structure Leaves (builder : JobBuilder) (a : JobAct) (before after : Job) : Prop where
  duty : builder.MakesRounds after.duty
  stopped : after.stopped = true ↔ a = .stop ∨ (a ≠ .reload ∧ before.stopped = true)
  crew : (∀ uuid, a ≠ .attach uuid ∧ a ≠ .detach uuid) → after.patrol.crew = before.patrol.crew

theorem Rounds.leaves (h : j.Rounds builder plan action steps) (a : JobAct) :
    Leaves builder a j (j.act a).2 := by
  have horder := order_of_unbroken h.walks.unbroken
  cases a with
  | task account time =>
    cases hworks : j.stopped with
    | true =>
      have hidle : (j.act (.task account time)).2 = j :=
        (JobStep.of_stopped (s := ⟨j, .task account time⟩) rfl hworks).2.1
      rw [hidle]
      exact ⟨h.duty, by simp [hworks], fun _ => rfl⟩
    | false =>
      have hformer : j.patrol.stopped = false := hworks
      obtain ⟨duty, hduty, ⟨-, place, patrol, -, hout, hstopped, hcrew, -⟩ | ⟨waiting, -, hout⟩⟩ :=
        h.handOut hworks account time
      · rw [Job.act, hout]
        exact ⟨hduty, by simp [Job.stopped, hstopped, hformer], fun _ => hcrew⟩
      · rw [Job.act, hout]
        exact ⟨hduty, by simp [Job.stopped], fun _ => rfl⟩
  | reload =>
    rw [Job.act, h.walks.reload]
    exact ⟨makesRounds_restartDuty h.duty, by simp [Job.stopped, Patrol.rebuild, Patrol.reset],
      fun _ => rfl⟩
  | stop =>
    rw [Job.act, Job.stop, horder]
    exact ⟨h.duty, by simp [Job.stopped, Patrol.stop], fun _ => rfl⟩
  | attach uuid =>
    rw [Job.act, Job.attach, horder]
    exact ⟨h.duty, by simp [Job.stopped, Patrol.attach], fun hother => absurd rfl (hother uuid).1⟩
  | detach uuid =>
    rw [Job.act, Job.detach, horder]
    exact ⟨h.duty, by simp [Job.stopped, Patrol.detach], fun hother => absurd rfl (hother uuid).2⟩
  | sighting s time =>
    rw [Job.act, addSighting_eq]
    exact ⟨(makesRounds_report h.duty s time).1, by simp [Job.stopped], fun _ => rfl⟩
  | checked s time =>
    rw [Job.act, addIv_eq]
    exact ⟨(makesRounds_report h.duty s time).2, by simp [Job.stopped], fun _ => rfl⟩

/-! ## Steps -/

variable {s : JobStep}

/-- Only reloads start coverage over. -/
theorem Rounds.restarts_iff (h : s.job.Rounds builder plan action steps) :
    s.restarts = true ↔ s.act = .reload := by
  obtain ⟨account, time, hact⟩ | hact | haside := s.act.cases
  · have hday : s.job.newDay time = false := by
      have hrounds := h.duty
      unfold newDay
      generalize s.job.duty = duty at hrounds
      cases hrounds <;> rfl
    simp [JobStep.restarts, hact, restarts, hday]
  · simp [(JobStep.of_reload hact h.walks.unbroken).2.1, hact]
  · have honward := (JobStep.of_aside haside).2
    refine ⟨fun hrestarts => ?_, fun hact => ?_⟩
    · rw [honward] at hrestarts
      cases hrestarts
    · rw [hact] at haside
      cases haside

/-- What shows of a step of a job that makes rounds. Nothing is handed out and the patrol stays at its
    place, or starts over with a reload; or a check-in gets the check of the first encounter that waits,
    for which the patrol stays, or else the scan of the next place. -/
inductive RoundOutcome (plan : JobPlan) (action : ScanAction) (k : Nat) (s : JobStep) : Prop where
  | rests (silent : s.Silent) (act : s.act ≠ .reload) (walks : s.after.Walks plan k)
    (answered : ∀ account time, s.act = .task account time →
      s.handout?.isSome = true ∧ s.job.stopped = true)
  | restarts (silent : s.Silent) (act : s.act = .reload) (walks : s.after.Walks plan 0)
  | checks {account : Option String} {time : Instant} {waiting : Sighting}
    (act : s.act = .task account time) (works : s.job.stopped = false)
    (next : s.job.nextWaiting? time = some waiting)
    (work : s.work? = some (plan.definition.roundCheck waiting))
    (patrol : s.after.patrol = s.job.patrol) (walks : s.after.Walks plan k)
  | scans {account : Option String} {time : Instant} {place : Coordinate}
    (act : s.act = .task account time) (works : s.job.stopped = false)
    (next : s.job.nextWaiting? time = none)
    (place_eq : plan.area.route[k % plan.area.route.length]? = some place)
    (work : s.work? = some (plan.definition.roundScan action place))
    (walks : s.after.Walks plan (k + 1))

theorem Rounds.outcome (h : s.job.Rounds builder plan action steps) :
    RoundOutcome plan action (scanned steps).length s := by
  obtain ⟨account, time, hact⟩ | hact | haside := s.act.cases
  · cases hworks : s.job.stopped with
    | true =>
      obtain ⟨hidle, hafter, -⟩ := JobStep.of_stopped hact hworks
      refine .rests (JobStep.silent_of_idle hidle) ?_ (hafter ▸ h.walks) fun _ _ _ => ⟨?_, hworks⟩
      · rw [hact]
        exact nofun
      · rw [hidle]
        rfl
    | false =>
      have hstep : s.job.act s.act = s.job.handOut account time := by
        rw [hact]
        rfl
      obtain ⟨duty, -, ⟨hnext, place, patrol, hplace, hout, -, -, hwalks⟩ | ⟨waiting, hnext, hout⟩⟩ :=
        h.handOut hworks account time
      · obtain ⟨hafter, hwork, -⟩ := JobStep.of_work (hstep.trans hout) (Task.scan_ne_idle _ _ _ _)
        exact .scans hact hworks hnext hplace hwork (hafter ▸ hwalks)
      · obtain ⟨hafter, hwork, -⟩ := JobStep.of_work (hstep.trans hout) nofun
        refine .checks hact hworks hnext hwork ?_ (hafter ▸ h.walks.with_duty duty)
        rw [hafter]
  · obtain ⟨hsilent, -, hafter⟩ := JobStep.of_reload hact h.walks.unbroken
    exact .restarts hsilent hact (hafter ▸ h.walks.walks_reload)
  · refine .rests (JobStep.of_aside haside).1 (fun hact => ?_) (h.walks.walks_aside haside)
      fun account time hact => ?_
    · rw [hact] at haside
      cases haside
    · rw [hact] at haside
      cases haside

/-- A scan that a device gets counts from then on. -/
theorem Rounds.scanned_of_scan (h : s.job.Rounds builder plan action steps)
    {account : Option String} {time : Instant} (hact : s.act = .task account time) {place : Coordinate}
    (hwork : s.work? = some (plan.definition.roundScan action place)) :
    scanned (steps ++ [s]) = scanned steps ++ [s] := by
  refine scanned_of_scans (Bool.eq_false_iff.2 (mt h.restarts_iff.1 ?_)) ?_ steps
  · rw [hact]
    exact nofun
  · rw [JobStep.scans, hwork]
    rfl

/-- Without a scan the number of scans stays, reloads apart. -/
theorem Rounds.scanned_of_idle (h : s.job.Rounds builder plan action steps) (hact : s.act ≠ .reload)
    (hidle : s.scans = false) : scanned (steps ++ [s]) = scanned steps :=
  scanned_of_onward (Bool.eq_false_iff.2 (mt h.restarts_iff.1 hact)) hidle steps

/-- Whatever is done with a job that makes rounds, it is as the steps tell. -/
theorem Rounds.step (h : s.job.Rounds builder plan action steps) :
    s.after.Rounds builder plan action (steps ++ [s]) := by
  have hleaves := h.leaves s.act
  have hrestarts := h.restarts_iff
  have hstopped : s.after.stopped = true ↔ .stop ∈ (coverage (steps ++ [s])).map JobStep.act := by
    rw [stop_mem_coverage hrestarts, ← h.stopped]
    exact hleaves.stopped
  have hrounds (hwalks : s.after.Walks plan (scanned (steps ++ [s])).length)
      (hcycles : Cycles plan.area.route (plan.definition.roundScan action) (scanned (steps ++ [s]))) :
      s.after.Rounds builder plan action (steps ++ [s]) :=
    ⟨h.action_eq, h.has_route, hwalks, hleaves.duty, hcycles, h.orderly.act s.act, hstopped⟩
  have hstays (hact : s.act ≠ .reload) (hidle : s.scans = false)
      (hwalks : s.after.Walks plan (scanned steps).length) :
      s.after.Rounds builder plan action (steps ++ [s]) := by
    have hscanned := h.scanned_of_idle hact hidle
    refine hrounds ?_ ?_
    · rw [hscanned]
      exact hwalks
    · rw [hscanned]
      exact h.cycles
  cases h.outcome with
  | rests silent act walks _ => exact hstays act silent.scans walks
  | checks act _ _ work _ walks =>
    refine hstays ?_ ?_ walks
    · rw [act]
      exact nofun
    · rw [JobStep.scans, work]
      rfl
  | restarts silent act walks =>
    have hscanned := scanned_of_restarts (hrestarts.2 act) silent.scans steps
    refine hrounds ?_ ?_
    · rw [hscanned]
      exact walks
    · rw [hscanned]
      exact cycles_nil
  | scans act _ _ place_eq work walks =>
    have hscanned := h.scanned_of_scan act work
    refine hrounds ?_ ?_
    · rw [hscanned, List.length_append, List.length_singleton]
      exact walks
    · rw [hscanned]
      exact h.cycles.append_singleton place_eq work

theorem Rounds.run (h : j.Rounds builder plan action steps) (acts : List JobAct) :
    (j.run acts).Rounds builder plan action (steps ++ j.steps acts) := by
  induction acts generalizing j steps with
  | nil =>
    rw [Job.steps, List.append_nil]
    exact h
  | cons a rest ih =>
    have hrest := ih (Rounds.step (s := ⟨j, a⟩) h)
    rw [List.append_assoc] at hrest
    exact hrest

/-- What shows of a step of a job that makes rounds, after the steps since it was built. Only reloads
    start coverage over. A check-in is always answered, with work unless the job was stopped since. The
    work is the check of the first encounter that waits, for which the patrol does not move, or, when
    none waits, the scan of the place that the number of scans tells. The patrol stands at the place that
    follows, and never beyond its route. Only attaching and detaching change the crew, and they change
    nothing else of the patrol. -/
structure RoundStep (plan : JobPlan) (action : ScanAction) (earlier : List JobStep) (s : JobStep) :
    Prop where
  restarts : s.restarts = true ↔ s.act = .reload
  answered : ∀ account time, s.act = .task account time →
    s.handout?.isSome = true ∧ (s.work? = none ↔ .stop ∈ (coverage earlier).map JobStep.act)
  work : ∀ task, s.work? = some task → ∃ account time, s.act = .task account time
    ∧ ((∃ waiting, s.job.nextWaiting? time = some waiting
          ∧ task = plan.definition.roundCheck waiting ∧ s.after.patrol = s.job.patrol)
      ∨ (s.job.nextWaiting? time = none
        ∧ ∃ place, plan.area.route[((scanned (earlier ++ [s])).length - 1) % plan.area.route.length]?
            = some place
          ∧ task = plan.definition.roundScan action place))
  position : s.after.patrol.route = plan.area.route
    ∧ s.after.patrol.At (scanned (earlier ++ [s])).length
  inside : s.job.patrol.cursor < plan.area.route.length
    ∧ s.after.patrol.cursor < plan.area.route.length
  crew : (∀ uuid, s.act ≠ .attach uuid ∧ s.act ≠ .detach uuid) →
    s.after.patrol.crew = s.job.patrol.crew
  orders : ∀ uuid, s.act = .attach uuid ∨ s.act = .detach uuid →
    s.after.patrol = { s.job.patrol with crew := s.after.patrol.crew }

/-- A position on a route with places. -/
theorem Walks.cursor_lt {k : Nat} (h : j.Walks plan k) (hroute : plan.area.route ≠ []) :
    j.patrol.cursor < plan.area.route.length := by
  rw [h.position.cursor, h.route]
  exact Nat.mod_lt k (List.length_pos_iff.2 hroute)

/-- Attaching and detaching change the crew only. -/
theorem patrol_of_orders (h : s.job.broken = false) {uuid : String}
    (hact : s.act = .attach uuid ∨ s.act = .detach uuid) :
    s.after.patrol = { s.job.patrol with crew := s.after.patrol.crew } := by
  rcases hact with hact | hact
  · have hafter : s.after = s.job.attach uuid := by
      rw [JobStep.after, hact]
      rfl
    rw [hafter, Job.attach, order_of_unbroken h]
    rfl
  · have hafter : s.after = s.job.detach uuid := by
      rw [JobStep.after, hact]
      rfl
    rw [hafter, Job.detach, order_of_unbroken h]
    rfl

/-- Whatever is done with a job that makes rounds, it does as the steps tell. -/
theorem Rounds.shows (h : s.job.Rounds builder plan action steps) :
    RoundStep plan action steps s := by
  have hafter := h.step
  have houtcome := h.outcome
  refine ⟨h.restarts_iff, fun account time hact => ?_, fun task htask => ?_,
    ⟨hafter.walks.route, hafter.walks.position⟩,
    ⟨h.walks.cursor_lt h.has_route, hafter.walks.cursor_lt h.has_route⟩, (h.leaves s.act).crew,
    fun uuid => patrol_of_orders h.walks.unbroken⟩
  · rw [← h.stopped]
    cases houtcome with
    | rests silent _ _ answered =>
      obtain ⟨hout, hstopped⟩ := answered account time hact
      exact ⟨hout, fun _ => hstopped, fun _ => silent.work⟩
    | restarts _ act _ =>
      rw [act] at hact
      cases hact
    | checks _ works _ work _ _ => simp [JobStep.handout_of_work work, work, works]
    | scans _ works _ _ work _ => simp [JobStep.handout_of_work work, work, works]
  · cases houtcome with
    | rests silent _ _ _ =>
      rw [silent.work] at htask
      cases htask
    | restarts silent _ _ =>
      rw [silent.work] at htask
      cases htask
    | checks act _ next work patrol _ =>
      obtain rfl := Option.some.inj (work.symm.trans htask)
      exact ⟨_, _, act, .inl ⟨_, next, rfl, patrol⟩⟩
    | scans act _ next _ work _ =>
      obtain ⟨place, hplace, hdone⟩ := hafter.cycles.getLast (h.scanned_of_scan act work)
      exact ⟨_, _, act, .inr ⟨next, place, hplace, Option.some.inj (htask.symm.trans hdone)⟩⟩

/-- The status of a circle and of a search tells the number of scans. -/
theorem Rounds.status (h : j.Rounds builder plan action steps) (hworks : j.stopped = false)
    (time : Instant) :
    (builder = .circle → (j.status time).1
        = circleText j.patrol.crew.size (scanned steps).length plan.area.route.length)
      ∧ (builder = .spawnpoint → (j.status time).1
        = searchText (scanned steps).length plan.area.route.length) := by
  have hrounds := h.duty
  unfold Job.status circleText searchText
  rw [h.walks.unbroken, hworks, h.walks.position.cursor, h.walks.position.laps, h.walks.route]
  constructor
  · rintro rfl
    generalize j.duty = duty at hrounds
    cases hrounds
    rfl
  · rintro rfl
    generalize j.duty = duty at hrounds
    cases hrounds
    rfl

/-- Rounds hand out the places of the route in turn, whoever asks. Whatever is done with a job that
    makes rounds, every step shows what the steps before tell. There are no more laps than acts, the lap
    that comes next is known by its number before the count starts over, and the status of a circle or of
    a search at work tells lap and place by the number of scans since coverage started over. -/
theorem rounds_in_turn {clock : Instant}
    (haction : builder.roundAction? plan.definition.kind = some action)
    (hbuild : builder.build plan clock = .ok j) (acts : List JobAct) :
    (∀ earlier s later, j.steps acts = earlier ++ s :: later → RoundStep plan action earlier s)
      ∧ (j.run acts).patrol.laps.toNat ≤ acts.length
      ∧ (acts.length + 1 < UInt64.size → ((j.run acts).patrol.laps + 1).toNat
        = (scanned (j.steps acts)).length / plan.area.route.length + 1)
      ∧ ((j.run acts).stopped = false → ∀ time,
        (builder = .circle → ((j.run acts).status time).1 = circleText (j.run acts).patrol.crew.size
            (scanned (j.steps acts)).length plan.area.route.length)
          ∧ (builder = .spawnpoint → ((j.run acts).status time).1
            = searchText (scanned (j.steps acts)).length plan.area.route.length)) := by
  have hrounds (before : List JobAct) :
      (j.run before).Rounds builder plan action (j.steps before) :=
    (rounds_of_build haction hbuild).run before
  have hscanned : (scanned (j.steps acts)).length ≤ acts.length :=
    calc (scanned (j.steps acts)).length ≤ (coverage (j.steps acts)).length :=
        List.length_filter_le _ _
      _ ≤ (j.steps acts).length := length_coverage_le _
      _ = acts.length := j.length_steps acts
  have hlaps : (j.run acts).patrol.laps
      = lapsAfter (scanned (j.steps acts)).length plan.area.route.length := by
    rw [(hrounds acts).walks.position.laps, (hrounds acts).walks.route, lapsAfter]
  refine ⟨fun earlier s later hsteps => ?_, ?_, fun hshort => ?_,
    fun hworks time => (hrounds acts).status hworks time⟩
  · obtain ⟨before, -, -, rfl, hjob⟩ := steps_eq_append_cons hsteps
    have hbefore := hrounds before
    rw [← hjob] at hbefore
    exact hbefore.shows
  · rw [hlaps]
    exact Nat.le_trans (toNat_lapsAfter_le _ _) hscanned
  · rw [hlaps]
    exact toNat_lapsAfter_succ (by omega)

/-- A round of three places with two encounters. The first is checked between two scans. The second
    despawns before anybody asks, so that the round goes on, and then it is reloaded. -/
theorem rounds_in_turn_twoEncounters :
    let plan : JobPlan :=
      { definition := { name := "ivs", kind := .pokemonIv }
        area := .polygons [[⟨0, 0⟩, ⟨0, 2⟩, ⟨2, 2⟩]]
        ivList := some ⟨"rare", [25]⟩ }
    let moment (second : Int) := Instant.ofSeconds second
    let seen (encounter : String) : Sighting :=
      { encounter, species := 25, place := ⟨1, 1.5⟩, expires := some 100 }
    let ask (second : Int) : JobAct := .task none (moment second)
    let acts : List JobAct :=
      [ask 0, .sighting (seen "e1") (moment 1), ask 2, ask 3, .sighting (seen "e2") (moment 4), ask 100,
        .attach "d1", .reload, ask 101]
    JobBuilder.pokemonIv.roundAction? plan.definition.kind = some .pokemon
      ∧ ∃ j, JobBuilder.pokemonIv.build plan (moment 0) = .ok j
        ∧ (∀ earlier s later, j.steps acts = earlier ++ s :: later → RoundStep plan .pokemon earlier s)
        ∧ (j.steps acts).map (fun s => s.work?.map Task.isScan)
          = [some true, none, some false, some true, none, some true, none, none, some true]
        ∧ (scanned (j.steps acts)).length = 1 ∧ (j.run acts).patrol.laps.toNat ≤ 9 := by
  intro plan moment seen ask acts
  have haction : JobBuilder.pokemonIv.roundAction? plan.definition.kind = some .pokemon := rfl
  refine ⟨haction, _, rfl, ?_⟩
  have hbuild : JobBuilder.pokemonIv.build plan (moment 0) = .ok (plan.job _) := rfl
  obtain ⟨hsteps, hlaps, -⟩ := rounds_in_turn haction hbuild acts
  exact ⟨hsteps, by decide +kernel, by decide +kernel, hlaps⟩

/-- A circle of two places in its second lap. -/
example :
    let plan : JobPlan :=
      { definition := { name := "ring", kind := .circleRaid }, area := .points [⟨0, 0⟩, ⟨0, 2⟩] }
    let ask := JobAct.task none (.ofSeconds 0)
    (((plan.job .circle).run [ask, .attach "d1", ask, ask]).status (.ofSeconds 0)).1
      = "1 devices, lap 2, point 2/2" := by
  decide +kernel

end Job

end ScanFleet
