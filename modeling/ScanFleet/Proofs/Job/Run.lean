import ScanFleet.Job.Build

set_option autoImplicit false

/-! # Runs of a job

A run is a list of acts, and a step of it is an act together with the job as it was before. Coverage
starts over when the job is reloaded and, for a quest job, with a check-in on another date than the
last. `handed` lists the steps since then that handed out work. A patrol that has handed out `k` places
since it started over is at a position that `k` alone decides (`Patrol.At`), so what a job does next can
be told from the steps of its run. -/

namespace ScanFleet

/-! ## Patrols -/

namespace Patrol

/-- The patrol has handed out `k` places since it started over. -/
structure At (p : Patrol) (k : Nat) : Prop where
  cursor : p.cursor = k % p.route.length
  laps : p.laps = .ofNat (k / p.route.length)

theorem at_zero {p : Patrol} (hcursor : p.cursor = 0) (hlaps : p.laps = 0) : p.At 0 := by
  constructor
  · rw [hcursor, Nat.zero_mod]
  · rw [hlaps, Nat.zero_div]
    rfl

theorem at_reset (p : Patrol) : p.reset.At 0 := at_zero rfl rfl

theorem at_rebuild (p : Patrol) (route : List Coordinate) : (p.rebuild route).At 0 := at_reset _

/-- A lap is complete when its last place was handed out. -/
theorem dvd_succ_iff {k length : Nat} : length ∣ k + 1 ↔ k % length + 1 = length := by
  have hk := Nat.div_add_mod k length
  constructor
  · intro hdvd
    have hnext : length * (k / length + 1) = k + 1 := by
      rw [← Nat.succ_div_of_dvd hdvd, Nat.mul_div_cancel' hdvd]
    rw [Nat.mul_add, Nat.mul_one] at hnext
    omega
  · intro hlast
    refine ⟨k / length + 1, ?_⟩
    rw [Nat.mul_add, Nat.mul_one]
    omega

/-- A patrol at work hands out the places of its route in turn, and the last of a lap completes it. -/
theorem At.advance {p : Patrol} {k : Nat} (h : p.At k) (hroute : p.route ≠ [])
    (hworks : p.stopped = false) :
    ∃ place, p.route[k % p.route.length]? = some place
      ∧ p.advance.1 = some ⟨place, decide (p.route.length ∣ k + 1)⟩ ∧ p.advance.2.At (k + 1) := by
  have hlt : k % p.route.length < p.route.length := Nat.mod_lt k (List.length_pos_iff.2 hroute)
  obtain ⟨place, hplace⟩ : ∃ place, p.route[k % p.route.length]? = some place :=
    ⟨_, List.getElem?_eq_getElem hlt⟩
  refine ⟨place, hplace, ?_⟩
  have hdiv : (k + 1) / p.route.length
      = k / p.route.length + if p.route.length ∣ k + 1 then 1 else 0 := Nat.succ_div
  have hk := Nat.div_add_mod k p.route.length
  have hnext := Nat.div_add_mod (k + 1) p.route.length
  rw [hdiv, Nat.mul_add] at hnext
  unfold Patrol.advance
  rw [hworks, if_neg Bool.false_ne_true, h.cursor, hplace]
  by_cases hlast : k % p.route.length + 1 = p.route.length
  · have hdvd := dvd_succ_iff.2 hlast
    rw [if_pos hdvd] at hdiv hnext
    dsimp only
    rw [if_pos hlast, decide_eq_true hdvd]
    refine ⟨rfl, ?_, ?_⟩
    · show 0 = (k + 1) % p.route.length
      omega
    · show p.laps + 1 = .ofNat ((k + 1) / p.route.length)
      rw [h.laps, hdiv, UInt64.ofNat_add]
      rfl
  · have hdvd := mt dvd_succ_iff.1 hlast
    rw [if_neg hdvd] at hdiv hnext
    dsimp only
    rw [if_neg hlast, decide_eq_false hdvd]
    refine ⟨rfl, ?_, ?_⟩
    · show k % p.route.length + 1 = (k + 1) % p.route.length
      omega
    · show p.laps = .ofNat ((k + 1) / p.route.length)
      rw [h.laps, hdiv, Nat.add_zero]

end Patrol

/-! ## Acts -/

theorem Task.scan_ne_idle (action : ScanAction) (place : Coordinate) (minLevel maxLevel : UInt8) :
    Task.scan action place minLevel maxLevel ≠ .idle := by
  intro habsurd
  cases habsurd

/-- What can be done with a job. A job does not look at who checks in, only at the account. -/
inductive JobAct where
  | task (account : Option String) (time : Instant)
  | reload
  | stop
  | attach (uuid : String)
  | detach (uuid : String)
  | sighting (s : Sighting) (time : Instant)
  | checked (s : Sighting) (time : Instant)

namespace Job

/-- What a job hands out at an act, if the act asks for a task, and the job after it. -/
def act (j : Job) : JobAct → Option Handout × Job
  | .task account time => j.handOut account time
  | .reload => (none, j.reload)
  | .stop => (none, j.stop)
  | .attach uuid => (none, j.attach uuid)
  | .detach uuid => (none, j.detach uuid)
  | .sighting s time => (none, j.addSighting s time)
  | .checked s time => (none, j.addIv s time)

/-- Whether an instant falls on another date than the last one of a quest job. -/
def newDay (j : Job) (time : Instant) : Bool :=
  match j.duty with
  | .quests state => (time.localDate? state.offset).any fun today => decide (today ≠ state.today)
  | _ => false

/-- Whether coverage starts over with an act. -/
def restarts (j : Job) : JobAct → Bool
  | .reload => !j.broken
  | .task _ time => !j.broken && !j.stopped && j.newDay time
  | _ => false

/-- The job after a run. -/
def run (j : Job) (acts : List JobAct) : Job := acts.foldl (fun j a => (j.act a).2) j

end Job

/-! ## Steps -/

/-- An act of a run, with the job as it was before. -/
structure JobStep where
  job : Job
  act : JobAct

namespace JobStep

/-- The job after the step. -/
def after (s : JobStep) : Job := (s.job.act s.act).2

/-- What is handed out. -/
def handout? (s : JobStep) : Option Handout := (s.job.act s.act).1

/-- Whether coverage starts over with the step. -/
def restarts (s : JobStep) : Bool := s.job.restarts s.act

/-- The work that is handed out. An idle task is none. -/
def work? (s : JobStep) : Option Task :=
  (s.handout?.map (·.task)).filter fun task => decide (task ≠ .idle)

/-- The name that is signalled when the step completes the coverage. -/
def signal? (s : JobStep) : Option String :=
  if s.handout?.any (·.completes) then some s.after.name else none

/-- The account that checks in. -/
def account? (s : JobStep) : Option String :=
  match s.act with
  | .task account _ => account
  | _ => none

/-- A step with which nothing is handed out and nothing signalled. -/
structure Silent (s : JobStep) : Prop where
  work : s.work? = none
  signal : s.signal? = none

theorem handout_of_work {s : JobStep} {task : Task} (h : s.work? = some task) :
    s.handout?.isSome = true := by
  cases hout : s.handout? with
  | none =>
    rw [work?, hout] at h
    cases h
  | some handout => rfl

theorem silent_of_no_handout {s : JobStep} (h : s.handout? = none) : s.Silent := by
  constructor
  · rw [work?, h]
    rfl
  · rw [signal?, h]
    rfl

theorem silent_of_idle {s : JobStep} (h : s.handout? = some { task := .idle }) : s.Silent := by
  constructor
  · rw [work?, h]
    rfl
  · rw [signal?, h]
    rfl

/-- A step with which work is handed out. -/
theorem of_work {s : JobStep} {task : Task} {completes : Bool} {after : Job}
    (h : s.job.act s.act = (some ⟨task, completes⟩, after)) (hwork : task ≠ .idle) :
    s.after = after ∧ s.work? = some task
      ∧ s.signal? = if completes then some after.name else none := by
  have hafter : s.after = after := congrArg Prod.snd h
  have hout : s.handout? = some ⟨task, completes⟩ := congrArg Prod.fst h
  refine ⟨hafter, ?_, ?_⟩
  · rw [work?, hout, Option.map_some, Option.filter_some, decide_eq_true hwork, if_pos rfl]
  · rw [signal?, hout, hafter]
    rfl

end JobStep

namespace Job

/-- The steps of a run. -/
def steps (j : Job) : List JobAct → List JobStep
  | [] => []
  | a :: rest => ⟨j, a⟩ :: (j.act a).2.steps rest

/-- A step of a run is made by an act of it, at the job that the acts before lead to. -/
theorem steps_eq_append_cons {j : Job} {acts : List JobAct} {earlier later : List JobStep}
    {s : JobStep} (h : j.steps acts = earlier ++ s :: later) :
    ∃ before rest, acts = before ++ s.act :: rest ∧ earlier = j.steps before
      ∧ s.job = j.run before := by
  induction acts generalizing j earlier with
  | nil => simp [steps] at h
  | cons first rest ih =>
    cases earlier with
    | nil =>
      obtain ⟨hstep, -⟩ := List.cons.inj h
      subst hstep
      exact ⟨[], rest, rfl, rfl, rfl⟩
    | cons step others =>
      obtain ⟨hstep, hrest⟩ := List.cons.inj h
      obtain ⟨before, later, rfl, rfl, hjob⟩ := ih hrest
      subst hstep
      exact ⟨first :: before, later, rfl, rfl, hjob⟩

end Job

/-! ## Coverage -/

/-- The steps since coverage last started over, the step with which it did among them. -/
def coverage (steps : List JobStep) : List JobStep :=
  steps.foldl (fun since s => if s.restarts then [s] else since ++ [s]) []

/-- The steps since coverage last started over that handed out work. -/
def handed (steps : List JobStep) : List JobStep := (coverage steps).filter (·.work?.isSome)

/-- The completions that were signalled, in order. -/
def signals (steps : List JobStep) : List String := steps.filterMap JobStep.signal?

theorem coverage_append_singleton (steps : List JobStep) (s : JobStep) :
    coverage (steps ++ [s]) = if s.restarts then [s] else coverage steps ++ [s] := by
  rw [coverage, List.foldl_append]
  rfl

theorem signals_append_singleton (steps : List JobStep) (s : JobStep) :
    signals (steps ++ [s]) = signals steps ++ s.signal?.toList := by
  rw [signals, List.filterMap_append]
  cases h : s.signal? with
  | none => simp [h, signals]
  | some name => simp [h, signals]

theorem signals_of_silent {s : JobStep} (h : s.Silent) (steps : List JobStep) :
    signals (steps ++ [s]) = signals steps := by
  rw [signals_append_singleton, h.signal, Option.toList_none, List.append_nil]

/-- What was handed out before a step and still counts at it. -/
def handedBefore (steps : List JobStep) (s : JobStep) : List JobStep :=
  if s.restarts then [] else handed steps

theorem handed_of_no_work {s : JobStep} (h : s.work? = none) (steps : List JobStep) :
    handed (steps ++ [s]) = handedBefore steps s := by
  rw [handed, coverage_append_singleton, handedBefore]
  split
  · simp [h]
  · simp [h, handed]

theorem handed_of_silent {s : JobStep} (h : s.Silent) (honward : s.restarts = false)
    (steps : List JobStep) : handed (steps ++ [s]) = handed steps := by
  rw [handed_of_no_work h.work, handedBefore, honward]
  rfl

theorem handed_of_work {s : JobStep} {task : Task} (h : s.work? = some task)
    (steps : List JobStep) : handed (steps ++ [s]) = handedBefore steps s ++ [s] := by
  rw [handed, coverage_append_singleton, handedBefore]
  split
  · simp [h]
  · simp [h, handed]

theorem handedBefore_of_onward {s : JobStep} (h : s.restarts = false) (steps : List JobStep) :
    handedBefore steps s = handed steps := by
  rw [handedBefore, h]
  rfl

theorem handedBefore_of_restarts {s : JobStep} (h : s.restarts = true) (steps : List JobStep) :
    handedBefore steps s = [] := by
  rw [handedBefore, h]
  rfl

theorem signals_coverage_of_onward {s : JobStep} (h : s.restarts = false) (steps : List JobStep) :
    signals (coverage (steps ++ [s])) = signals (coverage steps) ++ s.signal?.toList := by
  rw [coverage_append_singleton, h]
  exact signals_append_singleton (coverage steps) s

theorem signals_coverage_of_restarts {s : JobStep} (h : s.restarts = true) (steps : List JobStep) :
    signals (coverage (steps ++ [s])) = s.signal?.toList := by
  rw [coverage_append_singleton, h]
  exact signals_append_singleton [] s

/-- The steps hand out work at the places of a route in turn. -/
def Cycles (route : List Coordinate) (work : Coordinate → Task) (given : List JobStep) : Prop :=
  ∀ i s, given[i]? = some s →
    ∃ place, route[i % route.length]? = some place ∧ s.work? = some (work place)

section Cycles

variable {route : List Coordinate} {work : Coordinate → Task} {given : List JobStep}

theorem cycles_nil : Cycles route work [] := by
  intro i s h
  cases h

theorem Cycles.append_singleton (h : Cycles route work given) {s : JobStep} {place : Coordinate}
    (hplace : route[given.length % route.length]? = some place) (hwork : s.work? = some (work place)) :
    Cycles route work (given ++ [s]) := by
  intro i t hi
  by_cases hlt : i < given.length
  · rw [List.getElem?_append_left hlt] at hi
    exact h i t hi
  · rw [List.getElem?_append_right (Nat.le_of_not_lt hlt)] at hi
    rw [List.getElem?_singleton] at hi
    split at hi
    · obtain rfl := Option.some.inj hi
      obtain rfl : i = given.length := by omega
      exact ⟨place, hplace, hwork⟩
    · cases hi

/-- What the last of the steps handed out. -/
theorem Cycles.getLast (h : Cycles route work given) {earlier : List JobStep} {s : JobStep}
    (hgiven : given = earlier ++ [s]) :
    ∃ place, route[(given.length - 1) % route.length]? = some place ∧ s.work? = some (work place) := by
  subst hgiven
  rw [List.length_append, List.length_singleton, Nat.add_sub_cancel]
  exact h earlier.length s List.getElem?_concat_length

/-- A lap hands out every place of the route once, in order. -/
theorem Cycles.eq_map (h : Cycles route work given) (hlap : given.length = route.length) :
    given.filterMap (·.work?) = route.map work := by
  have hsame : given.map (·.work?) = route.map (some ∘ work) := by
    refine List.ext_getElem? fun i => ?_
    rw [List.getElem?_map, List.getElem?_map]
    cases hi : given[i]? with
    | none =>
      have hout : route.length ≤ i := hlap ▸ List.getElem?_eq_none_iff.1 hi
      rw [List.getElem?_eq_none hout]
      rfl
    | some s =>
      obtain ⟨place, hplace, hwork⟩ := h i s hi
      have hlt : i < route.length := by
        rw [← hlap]
        exact (List.getElem?_eq_some_iff.1 hi).1
      rw [Nat.mod_eq_of_lt hlt] at hplace
      rw [hplace, Option.map_some, hwork]
      rfl
  calc given.filterMap (·.work?) = (given.map (·.work?)).filterMap id := by
        rw [List.filterMap_map, Function.id_comp]
    _ = (route.map (some ∘ work)).filterMap id := by rw [hsame]
    _ = route.map work := by rw [List.filterMap_map, Function.id_comp, List.filterMap_eq_map]

end Cycles

/-! ## Jobs of a plan -/

/-- Acts that neither ask for a task nor start coverage over. -/
def JobAct.aside : JobAct → Bool
  | .task _ _ | .reload => false
  | _ => true

theorem JobAct.cases (a : JobAct) :
    (∃ account time, a = .task account time) ∨ a = .reload ∨ a.aside = true := by
  cases a with
  | task account time => exact .inl ⟨account, time, rfl⟩
  | reload => exact .inr (.inl rfl)
  | stop => exact .inr (.inr rfl)
  | attach uuid => exact .inr (.inr rfl)
  | detach uuid => exact .inr (.inr rfl)
  | sighting s time => exact .inr (.inr rfl)
  | checked s time => exact .inr (.inr rfl)

namespace Job

/-- A job of a plan that has handed out `k` places since coverage started over. -/
structure Walks (j : Job) (plan : JobPlan) (k : Nat) : Prop where
  definition : j.definition = plan.definition
  area : j.area = plan.area
  route : j.patrol.route = plan.area.route
  unbroken : j.broken = false
  position : j.patrol.At k

variable {j : Job} {plan : JobPlan} {k : Nat}

theorem walks_job (plan : JobPlan) (duty : Duty) : (plan.job duty).Walks plan 0 where
  definition := rfl
  area := rfl
  route := rfl
  unbroken := rfl
  position := Patrol.at_zero rfl rfl

/-- A job of a plan at work hands out the places of the route in turn. -/
theorem Walks.advance (h : j.Walks plan k) (hroute : plan.area.route ≠ [])
    (hworks : j.stopped = false) :
    ∃ place patrol, plan.area.route[k % plan.area.route.length]? = some place
      ∧ j.patrol.advance = (some ⟨place, decide (plan.area.route.length ∣ k + 1)⟩, patrol)
      ∧ patrol.stopped = false ∧ ∀ duty, ({ j with patrol, duty } : Job).Walks plan (k + 1) := by
  obtain ⟨place, hplace, hstep, hat⟩ := h.position.advance (h.route ▸ hroute) hworks
  rw [h.route] at hplace hstep
  have hstopped : j.patrol.advance.2.stopped = false := j.patrol.stopped_advance.trans hworks
  refine ⟨place, j.patrol.advance.2, hplace, Prod.ext hstep rfl, hstopped, fun duty => ?_⟩
  exact ⟨h.definition, h.area, j.patrol.route_advance.trans h.route, h.unbroken, hat⟩

theorem Walks.reload (h : j.Walks plan k) :
    j.reload = { j with patrol := j.patrol.rebuild plan.area.route, duty := restartDuty j.duty } := by
  rw [Job.reload, h.unbroken, h.area]
  rfl

theorem Walks.walks_reload (h : j.Walks plan k) : j.reload.Walks plan 0 := by
  rw [h.reload]
  exact ⟨h.definition, h.area, rfl, h.unbroken, Patrol.at_rebuild _ _⟩

/-- An order that leaves the patrol where it is. -/
theorem Walks.order (h : j.Walks plan k) (f : Patrol → Patrol)
    (hf : ∀ p, (f p).route = p.route ∧ (f p).cursor = p.cursor ∧ (f p).laps = p.laps) :
    (j.order f).Walks plan k ∧ (j.order f).duty = j.duty := by
  obtain ⟨hroute, hcursor, hlaps⟩ := hf j.patrol
  rw [Job.order, h.unbroken, if_neg Bool.false_ne_true]
  refine ⟨⟨h.definition, h.area, hroute.trans h.route, rfl, ?_, ?_⟩, rfl⟩
  · show (f j.patrol).cursor = k % (f j.patrol).route.length
    rw [hcursor, hroute, h.position.cursor]
  · show (f j.patrol).laps = .ofNat (k / (f j.patrol).route.length)
    rw [hlaps, hroute, h.position.laps]

theorem addSighting_of_not_isIv (h : j.isIv = false) (s : Sighting) (time : Instant) :
    j.addSighting s time = j := by
  unfold addSighting
  unfold isIv at h
  split
  · rename_i hduty
    rw [hduty] at h
    cases h
  · rfl

theorem addIv_of_not_isIv (h : j.isIv = false) (s : Sighting) (time : Instant) :
    j.addIv s time = j := by
  unfold addIv
  unfold isIv at h
  split
  · rename_i hduty
    rw [hduty] at h
    cases h
  · rfl

/-- Sightings and checks reach the duty only. -/
theorem addSighting_eq (j : Job) (s : Sighting) (time : Instant) :
    j.addSighting s time = { j with duty := (j.addSighting s time).duty } := by
  unfold addSighting
  split
  · rfl
  · rfl

theorem addIv_eq (j : Job) (s : Sighting) (time : Instant) :
    j.addIv s time = { j with duty := (j.addIv s time).duty } := by
  unfold addIv
  split
  · rfl
  · rfl

/-- The duty does not tell where the patrol is. -/
theorem Walks.with_duty (h : j.Walks plan k) (duty : Duty) : ({ j with duty } : Job).Walks plan k :=
  ⟨h.definition, h.area, h.route, h.unbroken, h.position⟩

/-- Acts aside leave the patrol at its place. -/
theorem Walks.walks_aside (h : j.Walks plan k) {a : JobAct} (ha : a.aside = true) :
    (j.act a).2.Walks plan k := by
  cases a with
  | task account time => cases ha
  | reload => cases ha
  | stop => exact (h.order Patrol.stop fun _ => ⟨rfl, rfl, rfl⟩).1
  | attach uuid => exact (h.order (·.attach uuid) fun _ => ⟨rfl, rfl, rfl⟩).1
  | detach uuid => exact (h.order (·.detach uuid) fun _ => ⟨rfl, rfl, rfl⟩).1
  | sighting s time =>
    rw [Job.act, addSighting_eq]
    exact h.with_duty _
  | checked s time =>
    rw [Job.act, addIv_eq]
    exact h.with_duty _

/-- Without an encounter queue, acts aside leave the duty alone as well. -/
theorem Walks.aside (h : j.Walks plan k) (hiv : j.isIv = false) {a : JobAct}
    (ha : a.aside = true) : (j.act a).2.Walks plan k ∧ (j.act a).2.duty = j.duty := by
  refine ⟨h.walks_aside ha, ?_⟩
  cases a with
  | task account time => cases ha
  | reload => cases ha
  | stop => exact (h.order Patrol.stop fun _ => ⟨rfl, rfl, rfl⟩).2
  | attach uuid => exact (h.order (·.attach uuid) fun _ => ⟨rfl, rfl, rfl⟩).2
  | detach uuid => exact (h.order (·.detach uuid) fun _ => ⟨rfl, rfl, rfl⟩).2
  | sighting s time => exact congrArg Job.duty (j.addSighting_of_not_isIv hiv s time)
  | checked s time => exact congrArg Job.duty (j.addIv_of_not_isIv hiv s time)

end Job

namespace JobStep

/-- An act aside goes on with the coverage, and hands out nothing. -/
theorem of_aside {s : JobStep} (h : s.act.aside = true) : s.Silent ∧ s.restarts = false := by
  obtain ⟨j, a⟩ := s
  cases a with
  | task account time => cases h
  | reload => cases h
  | stop => exact ⟨silent_of_no_handout rfl, rfl⟩
  | attach uuid => exact ⟨silent_of_no_handout rfl, rfl⟩
  | detach uuid => exact ⟨silent_of_no_handout rfl, rfl⟩
  | sighting s time => exact ⟨silent_of_no_handout rfl, rfl⟩
  | checked s time => exact ⟨silent_of_no_handout rfl, rfl⟩

/-- A reload starts coverage over, and hands out nothing. -/
theorem of_reload {s : JobStep} (h : s.act = .reload) (hunbroken : s.job.broken = false) :
    s.Silent ∧ s.restarts = true ∧ s.after = s.job.reload := by
  obtain ⟨j, a⟩ := s
  obtain rfl : a = .reload := h
  refine ⟨silent_of_no_handout rfl, ?_, rfl⟩
  show (!j.broken) = true
  rw [show j.broken = false from hunbroken]
  rfl

/-- A stopped job has no work for anybody, and stays as it is. -/
theorem of_stopped {s : JobStep} {account : Option String} {time : Instant}
    (h : s.act = .task account time) (hstopped : s.job.stopped = true) :
    s.handout? = some { task := .idle } ∧ s.after = s.job ∧ s.restarts = false := by
  obtain ⟨j, a⟩ := s
  obtain rfl : a = .task account time := h
  have hstopped : j.stopped = true := hstopped
  have hout : j.handOut account time = (some { task := .idle }, j) := by
    rw [Job.handOut, if_pos (.inr hstopped)]
  refine ⟨congrArg Prod.fst hout, congrArg Prod.snd hout, ?_⟩
  simp [restarts, Job.restarts, hstopped]

/-- A step that goes on with the coverage and hands out nothing: an act aside, or a check-in at a stopped
    job. -/
structure Rests (s : JobStep) (plan : JobPlan) (k : Nat) : Prop where
  silent : s.Silent
  onward : s.restarts = false
  walks : s.after.Walks plan k
  duty : s.after.duty = s.job.duty
  act : s.act ≠ .reload
  answered : ∀ account time, s.act = .task account time →
    s.handout?.isSome = true ∧ s.job.stopped = true

/-- Of a job without an encounter queue every step rests, reloads, or is a check-in at work. -/
theorem cases_of_walks {s : JobStep} {plan : JobPlan} {k : Nat} (h : s.job.Walks plan k)
    (hiv : s.job.isIv = false) :
    s.Rests plan k ∨ s.act = .reload
      ∨ ∃ account time, s.act = .task account time ∧ s.job.stopped = false := by
  obtain ⟨account, time, hact⟩ | hact | haside := s.act.cases
  · cases hstopped : s.job.stopped with
    | true =>
      obtain ⟨hidle, hafter, honward⟩ := of_stopped hact hstopped
      refine .inl ⟨silent_of_idle hidle, honward, ?_, ?_, ?_, fun _ _ _ => ⟨?_, hstopped⟩⟩
      · rw [hafter]
        exact h
      · rw [hafter]
      · rw [hact]
        exact nofun
      · rw [hidle]
        rfl
    | false => exact .inr (.inr ⟨account, time, hact, rfl⟩)
  · exact .inr (.inl hact)
  · obtain ⟨hsilent, honward⟩ := of_aside haside
    obtain ⟨hwalks, hduty⟩ := h.aside hiv haside
    refine .inl ⟨hsilent, honward, hwalks, hduty, fun hact => ?_, fun account time hact => ?_⟩
    · rw [hact] at haside
      cases haside
    · rw [hact] at haside
      cases haside

end JobStep

end ScanFleet
