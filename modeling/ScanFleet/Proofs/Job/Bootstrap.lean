import ScanFleet.Proofs.Job.Run

set_option autoImplicit false

/-! # Bootstrapping once for each coverage

A bootstrap job keeps count of the places that it handed out, and notes when the first lap is complete.
Patrol, count and note stay in step (`Job.Covers`): all three are told by the number of steps that handed
out work since coverage started over. So the completion is signalled by the step that hands out the last
place of the route for the first time, and by no other. -/

namespace ScanFleet

/-- The scan of a place by a bootstrap job. In fast mode no account is too low for it. -/
def Instance.bootstrapScan (i : Instance) (place : Coordinate) : Task :=
  .scan .bootstrap place (if i.settings.fastBootstrap then 0 else i.settings.minLevel)
    i.settings.maxLevel

/-- What the status of a bootstrap job at work tells when `k` places were handed out. -/
def bootstrapText (k length : Nat) : String :=
  if k < length then s!"Bootstrapping: {k}/{length} ({Job.percentText k length}%)"
  else s!"Done: {length}/{length}"

/-- What a bootstrap job keeps when it has handed out `k` places since coverage started over. -/
def BootstrapState.after (k length : Nat) : BootstrapState := ⟨min k length, decide (length ≤ k)⟩

namespace BootstrapState

theorem after_zero {route : List Coordinate} (h : route ≠ []) : after 0 route.length = {} := by
  have hlength : ¬ route.length ≤ 0 := Nat.not_le.2 (List.length_pos_iff.2 h)
  rw [after, Nat.zero_min, decide_eq_false hlength]

/-- After the first lap nothing is counted any more. -/
theorem after_succ_of_le {k length : Nat} (h : length ≤ k) : after (k + 1) length = after k length := by
  rw [after, after, Nat.min_eq_right h, Nat.min_eq_right (Nat.le_succ_of_le h), decide_eq_true h,
    decide_eq_true (Nat.le_succ_of_le h)]

/-- In the first lap every place is counted, and the one that completes the lap is the last. -/
theorem after_succ_of_lt {k length : Nat} (h : k < length) :
    after (k + 1) length = ⟨min k length + 1, decide (length ∣ k + 1)⟩
      ∧ (length ∣ k + 1 ↔ k + 1 = length) := by
  have hlast : length ∣ k + 1 ↔ k + 1 = length := by
    rw [Patrol.dvd_succ_iff, Nat.mod_eq_of_lt h]
  have hdone : length ≤ k + 1 ↔ length ∣ k + 1 := by
    rw [hlast]
    omega
  refine ⟨?_, hlast⟩
  rw [after, Nat.min_eq_left h, Nat.min_eq_left (Nat.le_of_lt h), decide_eq_decide.2 hdone]

end BootstrapState

/-- The completions that are signalled by the time `k` places were handed out. -/
def completions (name : String) (k length : Nat) : List String := if length ≤ k then [name] else []

theorem completions_zero (name : String) {route : List Coordinate} (h : route ≠ []) :
    completions name 0 route.length = [] :=
  if_neg (Nat.not_le.2 (List.length_pos_iff.2 h))

theorem completions_succ (name : String) (k length : Nat) :
    completions name (k + 1) length
      = completions name k length ++ (if k + 1 = length then some name else none).toList := by
  rw [completions, completions]
  by_cases hlast : k + 1 = length
  · rw [if_pos (Nat.le_of_eq hlast.symm), if_neg (by omega), if_pos hlast]
    rfl
  · rw [if_neg hlast, Option.toList_none, List.append_nil]
    by_cases hdone : length ≤ k
    · rw [if_pos hdone, if_pos (Nat.le_succ_of_le hdone)]
    · rw [if_neg hdone, if_neg (by omega)]

namespace Job

/-- A bootstrap job is as the steps of its run tell. -/
structure Covers (j : Job) (plan : JobPlan) (steps : List JobStep) : Prop where
  walks : j.Walks plan (handed steps).length
  duty : j.duty = .bootstrap (.after (handed steps).length plan.area.route.length)
  cycles : Cycles plan.area.route plan.definition.bootstrapScan (handed steps)
  signalled : signals (coverage steps)
    = completions plan.definition.name (handed steps).length plan.area.route.length

variable {j : Job} {plan : JobPlan} {steps : List JobStep}

theorem covers_of_build {now : Instant} (h : JobBuilder.bootstrap.build plan now = .ok j) :
    j.Covers plan [] := by
  have hroute := JobBuilder.route_ne_nil h
  unfold JobBuilder.build at h
  split at h
  · cases h
  · obtain rfl := Except.ok.inj h
    exact ⟨walks_job plan _, congrArg Duty.bootstrap (BootstrapState.after_zero hroute).symm,
      cycles_nil, (completions_zero _ hroute).symm⟩

/-- A bootstrap job at work hands out the next place, and completes its coverage with the last one. -/
theorem Covers.handOut (h : j.Covers plan steps) (hroute : plan.area.route ≠ [])
    (hworks : j.stopped = false) (account : Option String) (time : Instant) :
    ∃ place after, plan.area.route[(handed steps).length % plan.area.route.length]? = some place
      ∧ j.handOut account time = (some {
          task := plan.definition.bootstrapScan place
          completes := decide ((handed steps).length + 1 = plan.area.route.length) }, after)
      ∧ after.Walks plan ((handed steps).length + 1)
      ∧ after.duty = .bootstrap (.after ((handed steps).length + 1) plan.area.route.length) := by
  obtain ⟨place, patrol, hplace, hadvance, -, hwalks⟩ := h.walks.advance hroute hworks
  have hbusy : ¬ (j.broken = true ∨ j.stopped = true) := by simp [h.walks.unbroken, hworks]
  have hduty := h.duty
  rw [← h.walks.definition, Job.handOut, if_neg hbusy, h.duty]
  dsimp only
  rw [bootstrapTask, hadvance]
  generalize (handed steps).length = k at *
  by_cases hdone : plan.area.route.length ≤ k
  · have hnote : (BootstrapState.after k plan.area.route.length).completed = true :=
      decide_eq_true hdone
    have hnot : ¬ k + 1 = plan.area.route.length := by omega
    refine ⟨place, { j with patrol }, hplace, ?_, hwalks j.duty, ?_⟩
    · simp only [hnote, decide_eq_false hnot]
      rfl
    · exact hduty.trans (congrArg Duty.bootstrap (BootstrapState.after_succ_of_le hdone).symm)
  · have hnote : (BootstrapState.after k plan.area.route.length).completed = false :=
      decide_eq_false hdone
    obtain ⟨hnext, hlast⟩ := BootstrapState.after_succ_of_lt (Nat.lt_of_not_le hdone)
    rw [hnext]
    refine ⟨place, _, hplace, ?_, hwalks _, rfl⟩
    simp only [hnote, ← hlast]
    rfl

variable {s : JobStep}

/-- What shows of a check-in at a bootstrap job at work. -/
theorem Covers.serves (h : s.job.Covers plan steps) (hroute : plan.area.route ≠ [])
    (hworks : s.job.stopped = false) {account : Option String} {time : Instant}
    (hact : s.act = .task account time) :
    s.restarts = false
      ∧ (∃ place, plan.area.route[(handed steps).length % plan.area.route.length]? = some place
          ∧ s.work? = some (plan.definition.bootstrapScan place))
      ∧ s.signal? = (if (handed steps).length + 1 = plan.area.route.length
          then some plan.definition.name else none)
      ∧ s.after.Walks plan ((handed steps).length + 1)
      ∧ s.after.duty
        = .bootstrap (.after ((handed steps).length + 1) plan.area.route.length) := by
  obtain ⟨place, after, hplace, hout, hwalks, hduty⟩ := h.handOut hroute hworks account time
  have hstep : s.job.act s.act = s.job.handOut account time := by
    rw [hact]
    rfl
  obtain ⟨hafter, hwork, hsignal⟩ := JobStep.of_work (hstep.trans hout) (Task.scan_ne_idle _ _ _ _)
  have hname : after.name = plan.definition.name := congrArg Instance.name hwalks.definition
  rw [hafter]
  refine ⟨?_, ⟨place, hplace, hwork⟩, ?_, hwalks, hduty⟩
  · simp [JobStep.restarts, hact, restarts, newDay, h.duty]
  · rw [hsignal, hname]
    simp only [decide_eq_true_eq]

theorem Covers.isIv (h : j.Covers plan steps) : j.isIv = false := by rw [Job.isIv, h.duty]

/-- Coverage goes on without anything being handed out. -/
theorem Covers.rests (h : s.job.Covers plan steps) (hrests : s.Rests plan (handed steps).length) :
    s.after.Covers plan (steps ++ [s]) := by
  have hhanded := handed_of_silent hrests.silent hrests.onward steps
  refine ⟨?_, ?_, ?_, ?_⟩
  · rw [hhanded]
    exact hrests.walks
  · rw [hhanded, hrests.duty]
    exact h.duty
  · rw [hhanded]
    exact h.cycles
  · rw [hhanded, signals_coverage_of_onward hrests.onward, hrests.silent.signal, Option.toList_none,
      List.append_nil]
    exact h.signalled

/-- What shows of a step of a bootstrap job, after the steps since it was built. Only reloads start
    coverage over. A check-in is always answered, with work unless the job is stopped. The `k`th work
    since coverage started over is at the place that follows, and the signal goes out with the last place
    of the first lap, by when every place of the route was handed out in order. -/
structure BootstrapStep (plan : JobPlan) (earlier : List JobStep) (s : JobStep) : Prop where
  restarts : s.restarts = true ↔ s.act = .reload
  answered : ∀ account time, s.act = .task account time →
    s.handout?.isSome = true ∧ (s.work? = none ↔ s.job.stopped = true)
  work : ∀ task, s.work? = some task →
    ∃ place, plan.area.route[((handed (earlier ++ [s])).length - 1) % plan.area.route.length]?
        = some place
      ∧ task = plan.definition.bootstrapScan place
  signal : s.signal?
    = if s.work?.isSome ∧ (handed (earlier ++ [s])).length = plan.area.route.length
        then some plan.definition.name else none
  covered : s.signal?.isSome = true → (handed (earlier ++ [s])).filterMap (·.work?)
    = plan.area.route.map plan.definition.bootstrapScan

theorem BootstrapStep.of_silent {earlier : List JobStep} (h : s.Silent)
    (hrestarts : s.restarts = true ↔ s.act = .reload)
    (hanswered : ∀ account time, s.act = .task account time →
      s.handout?.isSome = true ∧ s.job.stopped = true) : BootstrapStep plan earlier s where
  restarts := hrestarts
  answered account time hact :=
    ⟨(hanswered account time hact).1, fun _ => (hanswered account time hact).2, fun _ => h.work⟩
  work task hwork := by
    rw [h.work] at hwork
    cases hwork
  signal := by
    rw [h.signal, h.work]
    rfl
  covered hsent := by
    rw [h.signal] at hsent
    cases hsent

/-- Whatever is done with a bootstrap job, it is as the steps tell. -/
theorem Covers.step (h : s.job.Covers plan steps) (hroute : plan.area.route ≠ []) :
    s.after.Covers plan (steps ++ [s]) := by
  obtain hrests | hact | ⟨account, time, hact, hworks⟩ := JobStep.cases_of_walks h.walks h.isIv
  · exact h.rests hrests
  · obtain ⟨hsilent, hrestarts, hafter⟩ := JobStep.of_reload hact h.walks.unbroken
    have hhanded : handed (steps ++ [s]) = [] :=
      (handed_of_no_work hsilent.work steps).trans (handedBefore_of_restarts hrestarts steps)
    have hduty : s.job.reload.duty = .bootstrap {} := by
      rw [h.walks.reload, h.duty]
      rfl
    refine ⟨?_, ?_, ?_, ?_⟩
    · rw [hhanded, hafter]
      exact h.walks.walks_reload
    · rw [hhanded, hafter, hduty, List.length_nil, BootstrapState.after_zero hroute]
    · rw [hhanded]
      exact cycles_nil
    · rw [hhanded, signals_coverage_of_restarts hrestarts, hsilent.signal, List.length_nil,
        completions_zero _ hroute]
      rfl
  · obtain ⟨honward, ⟨place, hplace, hwork⟩, hsignal, hwalks, hduty⟩ := h.serves hroute hworks hact
    have hhanded : handed (steps ++ [s]) = handed steps ++ [s] := by
      rw [handed_of_work hwork, handedBefore_of_onward honward]
    have hlength : (handed (steps ++ [s])).length = (handed steps).length + 1 := by
      rw [hhanded, List.length_append, List.length_singleton]
    refine ⟨?_, ?_, ?_, ?_⟩
    · rw [hlength]
      exact hwalks
    · rw [hlength]
      exact hduty
    · rw [hhanded]
      exact h.cycles.append_singleton hplace hwork
    · rw [hlength, signals_coverage_of_onward honward, hsignal, h.signalled, completions_succ]

/-- Whatever is done with a bootstrap job, it does as the steps tell. -/
theorem Covers.shows (h : s.job.Covers plan steps) (hroute : plan.area.route ≠ []) :
    BootstrapStep plan steps s := by
  have hcycles := (h.step hroute).cycles
  obtain hrests | hact | ⟨account, time, hact, hworks⟩ := JobStep.cases_of_walks h.walks h.isIv
  · refine .of_silent hrests.silent ?_ hrests.answered
    simp [hrests.onward, hrests.act]
  · obtain ⟨hsilent, hrestarts, -⟩ := JobStep.of_reload hact h.walks.unbroken
    refine .of_silent hsilent ?_ fun _ _ htask => ?_
    · simp [hrestarts, hact]
    · rw [hact] at htask
      cases htask
  · obtain ⟨honward, ⟨place, -, hwork⟩, hsignal, -, -⟩ := h.serves hroute hworks hact
    have hhanded : handed (steps ++ [s]) = handed steps ++ [s] := by
      rw [handed_of_work hwork, handedBefore_of_onward honward]
    have hsignal : s.signal?
        = if s.work?.isSome ∧ (handed (steps ++ [s])).length = plan.area.route.length
            then some plan.definition.name else none := by
      simp [hsignal, hwork, hhanded]
    refine ⟨?_, fun _ _ _ => ?_, fun task htask => ?_, hsignal, fun hsent => ?_⟩
    · simp [honward, hact]
    · simp [JobStep.handout_of_work hwork, hwork, hworks]
    · obtain ⟨place, hplace, hdone⟩ := hcycles.getLast hhanded
      exact ⟨place, hplace, Option.some.inj (htask.symm.trans hdone)⟩
    · refine hcycles.eq_map ?_
      rw [hsignal] at hsent
      split at hsent
      · rename_i hlap
        exact hlap.2
      · cases hsent

theorem Covers.run (h : j.Covers plan steps) (hroute : plan.area.route ≠ []) (acts : List JobAct) :
    (j.run acts).Covers plan (steps ++ j.steps acts) := by
  induction acts generalizing j steps with
  | nil =>
    rw [Job.steps, List.append_nil]
    exact h
  | cons a rest ih =>
    have hrest := ih (Covers.step (s := ⟨j, a⟩) h hroute)
    rw [List.append_assoc] at hrest
    exact hrest

theorem Covers.status (h : j.Covers plan steps) (hworks : j.stopped = false) (time : Instant) :
    (j.status time).1 = bootstrapText (handed steps).length plan.area.route.length := by
  unfold Job.status bootstrapText
  rw [h.walks.unbroken, hworks, h.duty, h.walks.route]
  by_cases hdone : plan.area.route.length ≤ (handed steps).length
  · have hnote : (BootstrapState.after (handed steps).length plan.area.route.length).completed
        = true := decide_eq_true hdone
    simp only [hnote, if_neg (Nat.not_lt.2 hdone), Bool.false_eq_true, if_false, if_true]
  · have hnote : (BootstrapState.after (handed steps).length plan.area.route.length).completed
        = false := decide_eq_false hdone
    have hcount : (BootstrapState.after (handed steps).length plan.area.route.length).visited
        = (handed steps).length := Nat.min_eq_left (Nat.le_of_not_le hdone)
    simp only [hnote, hcount, if_pos (Nat.lt_of_not_le hdone), Bool.false_eq_true, if_false]

/-- A bootstrap job completes once for each coverage. Whatever is done with it, every step shows what the
    steps before tell, at most one completion is signalled between two restarts, and the status of a job
    at work counts the places that were handed out until all were. -/
theorem bootstrap_completes_once {clock : Instant}
    (hbuild : JobBuilder.bootstrap.build plan clock = .ok j) (acts : List JobAct) :
    (∀ earlier s later, j.steps acts = earlier ++ s :: later → BootstrapStep plan earlier s)
      ∧ (signals (coverage (j.steps acts))).length ≤ 1
      ∧ ((j.run acts).stopped = false → ∀ time, ((j.run acts).status time).1
          = bootstrapText (handed (j.steps acts)).length plan.area.route.length) := by
  have hroute := JobBuilder.route_ne_nil hbuild
  have hcovers (before : List JobAct) : (j.run before).Covers plan (j.steps before) :=
    (covers_of_build hbuild).run hroute before
  refine ⟨fun earlier s later hsteps => ?_, ?_, fun hworks time => ?_⟩
  · obtain ⟨before, -, -, rfl, hjob⟩ := steps_eq_append_cons hsteps
    refine Covers.shows ?_ hroute
    rw [hjob]
    exact hcovers before
  · rw [(hcovers acts).signalled, completions]
    split
    · exact Nat.le_refl 1
    · exact Nat.zero_le 1
  · exact (hcovers acts).status hworks time

/-- A job of three places that is stopped in its first lap, reloaded, and asked five times. -/
theorem bootstrap_completes_once_stopAndReload :
    let plan : JobPlan :=
      { definition := { name := "start", kind := .bootstrap }
        area := .polygons [[⟨0, 0⟩, ⟨0, 2⟩, ⟨2, 2⟩]] }
    let j := plan.job (.bootstrap {})
    let ask := JobAct.task none (.ofSeconds 0)
    let acts := [ask, .stop, ask, .reload, ask, ask, .attach "dev-1", ask, ask, ask]
    signals (j.steps acts) = ["start"] ∧ (signals (coverage (j.steps acts))).length ≤ 1
      ∧ (j.run acts).stopped = false
      ∧ ((j.run acts).status (.ofSeconds 0)).1 = bootstrapText 5 3 := by
  intro plan j ask acts
  have hbuild : JobBuilder.bootstrap.build plan (.ofSeconds 0) = .ok j := rfl
  obtain ⟨-, honce, hstatus⟩ := bootstrap_completes_once hbuild acts
  have hworks : (j.run acts).stopped = false := by decide +kernel
  have hgiven : (handed (j.steps acts)).length = 5 := by decide +kernel
  refine ⟨by decide +kernel, honce, hworks, ?_⟩
  rw [hstatus hworks, hgiven]
  rfl

end Job

end ScanFleet
