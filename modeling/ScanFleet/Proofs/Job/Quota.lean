import ScanFleet.Proofs.Job.SpinLimit

set_option autoImplicit false

/-! # The spin limit between restarts

The counts of all accounts lie in one table, and yet each is told by the check-ins of its account alone:
of those since coverage last started over as many were handed a quest as there were, up to the limit.
`Rationed` says so of a list of steps. One more check-in keeps it, refused or served
(`Rationed.append_refused`, `Rationed.append_served`), because what others check in with does not enter
`callsOf`. -/

namespace ScanFleet

/-- The check-ins of an account among steps; with `none`, those without one. -/
def callsOf (steps : List JobStep) (account : Option String) : List JobStep :=
  steps.filter fun s => s.act.checkIn?.any fun c => decide (c.account = account)

/-- A step with which a quest at a place of the route is handed out. -/
def JobStep.Quests (s : JobStep) (plan : JobPlan) : Prop :=
  ∃ place ∈ plan.area.route, s.work? = some (plan.definition.questScan place)

/-- Of the check-ins of every account the first ones are handed quests, up to the limit, and the others
    are idle. A check-in without an account is handed a quest whatever the accounts were given. -/
structure Rationed (plan : JobPlan) (limit : Nat) (since : List JobStep) : Prop where
  served : ∀ account, ∀ s ∈ (callsOf since (some account)).take limit, s.Quests plan
  refused : ∀ account, ∀ s ∈ (callsOf since (some account)).drop limit,
    s.handout? = some { task := .idle }
  unnamed : ∀ s ∈ callsOf since none, s.Quests plan

/-! ## Check-ins of an account -/

section Calls

variable {since : List JobStep} {s : JobStep}

theorem callsOf_append_task {account : Option String} {time : Instant}
    (h : s.act = .task account time) (other : Option String) :
    callsOf (since ++ [s]) other
      = if account = other then callsOf since other ++ [s] else callsOf since other := by
  rw [callsOf, List.filter_append, List.filter_singleton, h]
  by_cases hsame : account = other
  · simp [JobAct.checkIn?, hsame, callsOf]
  · simp [JobAct.checkIn?, hsame, callsOf]

theorem callsOf_append_other (h : s.act.checkIn? = none) (account : Option String) :
    callsOf (since ++ [s]) account = callsOf since account := by
  rw [callsOf, List.filter_append, List.filter_singleton, h]
  exact List.append_nil _

/-- The work that was handed to an account is that of its check-ins. -/
theorem stepsOf_filter_work (since : List JobStep) (account : String) :
    stepsOf (since.filter (·.work?.isSome)) account
      = (callsOf since (some account)).countP (·.work?.isSome) := by
  rw [stepsOf, callsOf, List.countP_filter, List.countP_filter]
  refine List.countP_congr fun s _ => ?_
  have hsame : (s.account? = some account)
      ↔ (s.act.checkIn?.any fun c => decide (c.account = some account)) = true := by
    cases hact : s.act with
    | task name time => simp [JobStep.account?, hact, JobAct.checkIn?]
    | reload => simp [JobStep.account?, hact, JobAct.checkIn?]
    | stop => simp [JobStep.account?, hact, JobAct.checkIn?]
    | attach uuid => simp [JobStep.account?, hact, JobAct.checkIn?]
    | detach uuid => simp [JobStep.account?, hact, JobAct.checkIn?]
    | sighting met time => simp [JobStep.account?, hact, JobAct.checkIn?]
    | checked met time => simp [JobStep.account?, hact, JobAct.checkIn?]
  simp only [Bool.and_eq_true, decide_eq_true_eq, hsame]
  exact and_comm

end Calls

namespace Rationed

variable {plan : JobPlan} {limit : Nat} {since : List JobStep} {s : JobStep}

theorem nil (plan : JobPlan) (limit : Nat) : Rationed plan limit [] where
  served account s hs := by simp [callsOf] at hs
  refused account s hs := by simp [callsOf] at hs
  unnamed s hs := by simp [callsOf] at hs

/-- As many of the check-ins of an account are handed work as there are, up to the limit. -/
theorem tally (h : Rationed plan limit since) (account : String) :
    stepsOf (since.filter (·.work?.isSome)) account
      = min limit (callsOf since (some account)).length := by
  have hserved : ((callsOf since (some account)).take limit).countP (·.work?.isSome)
      = ((callsOf since (some account)).take limit).length := by
    refine List.countP_eq_length.2 fun s hs => ?_
    obtain ⟨place, -, hwork⟩ := h.served account s hs
    exact Option.isSome_of_eq_some hwork
  have hrefused : ((callsOf since (some account)).drop limit).countP (·.work?.isSome) = 0 := by
    refine List.countP_eq_zero.2 fun s hs => ?_
    simp [(JobStep.silent_of_idle (h.refused account s hs)).work]
  rw [stepsOf_filter_work, ← List.take_append_drop limit (callsOf since (some account)),
    List.countP_append, hserved, hrefused, Nat.add_zero, List.length_take,
    List.take_append_drop limit]

theorem append_other (h : Rationed plan limit since) (hact : s.act.checkIn? = none) :
    Rationed plan limit (since ++ [s]) where
  served account := by
    rw [callsOf_append_other hact]
    exact h.served account
  refused account := by
    rw [callsOf_append_other hact]
    exact h.refused account
  unnamed := by
    rw [callsOf_append_other hact]
    exact h.unnamed

/-- A check-in that is idle when its account has had its quests. -/
theorem append_refused (h : Rationed plan limit since) {name : String} {time : Instant}
    (hact : s.act = .task (some name) time) (hfull : limit ≤ (callsOf since (some name)).length)
    (hidle : s.handout? = some { task := .idle }) : Rationed plan limit (since ++ [s]) where
  served account := by
    rw [callsOf_append_task hact]
    split
    · rename_i hsame
      rw [← hsame, List.take_append_of_le_length hfull]
      exact h.served name
    · exact h.served account
  refused account := by
    rw [callsOf_append_task hact]
    split
    · rename_i hsame
      rw [← hsame, List.drop_append_of_le_length hfull]
      intro t ht
      rcases List.mem_append.1 ht with ht | ht
      · exact h.refused name t ht
      · rwa [List.mem_singleton.1 ht]
    · exact h.refused account
  unnamed := by
    rw [callsOf_append_task hact, if_neg (Option.some_ne_none name)]
    exact h.unnamed

/-- A check-in that is handed a quest when its account may have one more. -/
theorem append_served (h : Rationed plan limit since) {account : Option String} {time : Instant}
    (hact : s.act = .task account time)
    (hmore : ∀ name, account = some name → (callsOf since (some name)).length < limit)
    (hquests : s.Quests plan) : Rationed plan limit (since ++ [s]) where
  served other := by
    rw [callsOf_append_task hact]
    split
    · rename_i hsame
      have hlt := hmore other hsame
      rw [List.take_of_length_le (by rw [List.length_append, List.length_singleton]; omega)]
      intro t ht
      rcases List.mem_append.1 ht with ht | ht
      · exact h.served other t (by rwa [List.take_of_length_le (Nat.le_of_lt hlt)])
      · rwa [List.mem_singleton.1 ht]
    · exact h.served other
  refused other := by
    rw [callsOf_append_task hact]
    split
    · rename_i hsame
      have hlt := hmore other hsame
      rw [List.drop_of_length_le (by rw [List.length_append, List.length_singleton]; omega)]
      exact fun t ht => absurd ht List.not_mem_nil
    · exact h.refused other
  unnamed := by
    rw [callsOf_append_task hact]
    split
    · intro t ht
      rcases List.mem_append.1 ht with ht | ht
      · exact h.unnamed t ht
      · rwa [List.mem_singleton.1 ht]
    · exact h.unnamed

end Rationed

/-! ## Coverage -/

/-- The steps that a step goes on from, unless it starts coverage over. -/
def coverageBefore (steps : List JobStep) (s : JobStep) : List JobStep :=
  if s.restarts then [] else coverage steps

theorem coverage_append (steps : List JobStep) (s : JobStep) :
    coverage (steps ++ [s]) = coverageBefore steps s ++ [s] := by
  rw [coverage_append_singleton, coverageBefore]
  split
  · rfl
  · rfl

theorem handedBefore_eq_filter (steps : List JobStep) (s : JobStep) :
    handedBefore steps s = (coverageBefore steps s).filter (·.work?.isSome) := by
  rw [handedBefore, coverageBefore]
  split
  · rfl
  · rfl

namespace Job

variable {j : Job} {plan : JobPlan} {limit : UInt32} {steps : List JobStep} {s : JobStep}

/-! ## Broken jobs -/

/-- A broken job stays broken. -/
theorem broken_of_act (a : JobAct) (h : (j.act a).2.broken = false) : j.broken = false := by
  cases hbroken : j.broken with
  | false => rfl
  | true =>
    have hstill : (j.act a).2.broken = true := by
      cases a with
      | task account time =>
        show (j.handOut account time).2.broken = true
        rw [handOut, if_pos (.inl hbroken)]
        exact hbroken
      | reload =>
        show j.reload.broken = true
        rw [Job.reload, if_pos hbroken]
        exact hbroken
      | stop | attach uuid | detach uuid =>
        show (j.order _).broken = true
        rw [order, if_pos hbroken]
        exact hbroken
      | sighting s time =>
        show (j.addSighting s time).broken = true
        unfold addSighting
        split <;> exact hbroken
      | checked s time =>
        show (j.addIv s time).broken = true
        unfold addIv
        split <;> exact hbroken
    rw [hstill] at h
    cases h

/-- A check-in at work that leaves the job whole lies in the calendar. -/
theorem Sweeps.today_of_unbroken {given : List JobStep} {state : QuestState}
    (h : s.job.Sweeps plan given state) (hworks : s.job.stopped = false) {account : Option String}
    {time : Instant} (hact : s.act = .task account time) (hwhole : s.after.broken = false) :
    ∃ today, time.localDate? state.offset = some today := by
  cases htoday : time.localDate? state.offset with
  | some today => exact ⟨today, rfl⟩
  | none =>
    rw [JobStep.after, hact, Job.act, h.handOut_beyond hworks account htoday] at hwhole
    cases hwhole

/-- Whatever is done with a quest job that stays whole, it is as the steps tell. -/
theorem Quested.step_of_unbroken (h : s.job.Quested plan steps) (hroute : plan.area.route ≠ [])
    (hwhole : s.after.broken = false) : s.after.Quested plan (steps ++ [s]) := by
  obtain ⟨state, hsweeps, hpasses⟩ := h
  obtain hrests | hact | ⟨account, time, hact, hworks⟩ :=
    JobStep.cases_of_walks hsweeps.walks hsweeps.isIv
  · exact hsweeps.quested_of_rests hpasses hrests
  · refine Quested.step ⟨state, hsweeps, hpasses⟩ hroute fun account time hmem => ?_
    rw [List.mem_singleton, hact] at hmem
    cases hmem
  · refine Quested.step ⟨state, hsweeps, hpasses⟩ hroute fun account' time' hmem => ?_
    obtain ⟨today, htoday⟩ := hsweeps.today_of_unbroken hworks hact hwhole
    rw [List.mem_singleton, hact] at hmem
    cases hmem
    rw [← hsweeps.offset, htoday]
    rfl

/-! ## Runs -/

/-- The count of an account in a quest job. -/
def spins (j : Job) (account : String) : Nat :=
  match j.duty with
  | .quests state => spinsOf state.spins account
  | _ => 0

/-- A quest job at work, unless it was stopped since coverage started over, and the quests it has
    handed out since then. -/
structure Rations (j : Job) (plan : JobPlan) (limit : Nat) (steps : List JobStep) : Prop where
  quested : j.Quested plan steps
  works : (∀ s ∈ coverage steps, s.act ≠ .stop) → j.stopped = false
  rationed : (∀ s ∈ coverage steps, s.act ≠ .stop) → Rationed plan limit (coverage steps)

theorem Rations.before (h : j.Rations plan limit.toNat steps)
    (hstop : ∀ t ∈ coverageBefore steps s, t.act ≠ .stop) :
    Rationed plan limit.toNat (coverageBefore steps s) := by
  rw [coverageBefore] at hstop ⊢
  split
  · exact .nil plan limit.toNat
  · rename_i honward
    rw [if_neg honward] at hstop
    exact h.rationed hstop

/-- A check-in at work is handed the next quest unless its account has had as many as the limit allows
    since coverage started over. -/
theorem Rations.checkIn (h : s.job.Rations plan limit.toNat steps) (hroute : plan.area.route ≠ [])
    (hlimit : plan.definition.settings.spinLimit = some limit) (hworks : s.job.stopped = false)
    {account : Option String} {time : Instant} (hact : s.act = .task account time)
    (hwhole : s.after.broken = false) (hstop : ∀ t ∈ coverageBefore steps s, t.act ≠ .stop) :
    s.after.stopped = false ∧ Rationed plan limit.toNat (coverageBefore steps s ++ [s]) := by
  obtain ⟨state, hsweeps, -⟩ := h.quested
  obtain ⟨today, htoday⟩ := hsweeps.today_of_unbroken hworks hact hwhole
  have hbefore := h.before hstop
  have htally (name : String) : stepsOf (handedBefore steps s) name
      = min limit.toNat (callsOf (coverageBefore steps s) (some name)).length := by
    rw [handedBefore_eq_filter]
    exact hbefore.tally name
  -- the job goes by the quests it handed out, which are the check-ins up to the limit
  obtain ⟨-, ⟨hspent, hrefuses⟩ | ⟨hmore, hserves⟩⟩ := hsweeps.checkIn hroute hworks hact htoday
  · obtain ⟨name, rfl, hle⟩ := (Instance.spent_iff hlimit account _).1 hspent
    rw [htally name] at hle
    exact ⟨hrefuses.works, hbefore.append_refused hact (by omega) hrefuses.handout⟩
  · refine ⟨hserves.works, hbefore.append_served hact (fun name hname => ?_) ?_⟩
    · by_contra hfull
      refine hmore ((Instance.spent_iff hlimit account _).2 ⟨name, hname, ?_⟩)
      rw [htally name]
      omega
    · obtain ⟨after, hafter, -⟩ := hserves.after
      obtain ⟨place, hplace, hwork⟩ := hafter.cycles.getLast rfl
      exact ⟨place, List.mem_of_getElem? hplace, hwork⟩

/-- Acts aside leave a job at work, a stop apart. -/
theorem stopped_of_aside (hiv : j.isIv = false) {a : JobAct} (haside : a.aside = true)
    (hstop : a ≠ .stop) : (j.act a).2.stopped = j.stopped := by
  have horder (f : Patrol → Patrol) (hf : (f j.patrol).stopped = j.patrol.stopped) :
      (j.order f).stopped = j.stopped := by
    rw [order]
    split
    · rfl
    · exact hf
  cases a with
  | task account time => cases haside
  | reload => cases haside
  | stop => exact absurd rfl hstop
  | attach uuid => exact horder (·.attach uuid) rfl
  | detach uuid => exact horder (·.detach uuid) rfl
  | sighting s time => rw [Job.act, j.addSighting_of_not_isIv hiv]
  | checked s time => rw [Job.act, j.addIv_of_not_isIv hiv]

theorem Rations.step (h : s.job.Rations plan limit.toNat steps) (hroute : plan.area.route ≠ [])
    (hlimit : plan.definition.settings.spinLimit = some limit) (hwhole : s.after.broken = false) :
    s.after.Rations plan limit.toNat (steps ++ [s]) := by
  suffices hkey : (∀ t ∈ coverage (steps ++ [s]), t.act ≠ .stop) →
      s.after.stopped = false ∧ Rationed plan limit.toNat (coverage (steps ++ [s])) from
    ⟨h.quested.step_of_unbroken hroute hwhole, fun hstop => (hkey hstop).1,
      fun hstop => (hkey hstop).2⟩
  rw [coverage_append]
  intro hstop
  have hbefore : ∀ t ∈ coverageBefore steps s, t.act ≠ .stop :=
    fun t ht => hstop t (List.mem_append_left [s] ht)
  obtain ⟨state, hsweeps, -⟩ := h.quested
  obtain hrests | hact | ⟨account, time, hact, hworks⟩ :=
    JobStep.cases_of_walks hsweeps.walks hsweeps.isIv
  · -- the job stands still: as it was not stopped, nobody checked in
    have hsame : coverageBefore steps s = coverage steps := by
      rw [coverageBefore, hrests.onward]
      rfl
    have hworks : s.job.stopped = false := h.works (hsame ▸ hbefore)
    obtain ⟨account, time, hact⟩ | hact | haside := s.act.cases
    · rw [(hrests.answered account time hact).2] at hworks
      cases hworks
    · exact absurd hact hrests.act
    · have hother : s.act.checkIn? = none := by
        cases hact : s.act with
        | task account time => rw [hact] at haside; cases haside
        | _ => rfl
      refine ⟨?_, (h.before hbefore).append_other hother⟩
      exact (stopped_of_aside hsweeps.isIv haside (hstop s (by simp))).trans hworks
  · obtain ⟨-, -, hafter⟩ := JobStep.of_reload hact hsweeps.walks.unbroken
    refine ⟨?_, (h.before hbefore).append_other (by rw [hact]; rfl)⟩
    rw [hafter, hsweeps.walks.reload]
    rfl
  · exact h.checkIn hroute hlimit hworks hact hwhole hbefore

theorem rations_of_build {clock : Instant} (h : JobBuilder.autoQuest.build plan clock = .ok j)
    (limit : Nat) : j.Rations plan limit [] where
  quested := quested_of_build h
  works _ := by
    obtain ⟨duty, rfl⟩ := JobBuilder.exists_duty h
    rfl
  rationed _ := .nil plan limit

theorem rations_of_run {clock : Instant} (hbuild : JobBuilder.autoQuest.build plan clock = .ok j)
    (hlimit : plan.definition.settings.spinLimit = some limit) {acts : List JobAct}
    (hwhole : (j.run acts).broken = false) :
    (j.run acts).Rations plan limit.toNat (j.steps acts) := by
  -- a job that is whole at the end was whole all the time
  induction acts using List.reverseRecOn with
  | nil => exact rations_of_build hbuild limit.toNat
  | append_singleton acts a ih =>
    rw [run_append] at hwhole ⊢
    rw [steps_append]
    exact Rations.step (s := ⟨j.run acts, a⟩) (ih (broken_of_act a hwhole))
      (JobBuilder.route_ne_nil hbuild) hlimit hwhole

/-- The spin limit of a quest job, from one restart to the next. As long as the job is not stopped, the
    first check-ins of every account are handed quests, as many as the limit tells, and the others are
    idle, whoever else checks in in between. Check-ins without an account are always handed quests. The
    job counts for each account the quests it was handed, and no count outgrows the limit. -/
theorem spinLimit_exact {clock : Instant}
    (hbuild : JobBuilder.autoQuest.build plan clock = .ok j)
    (hlimit : plan.definition.settings.spinLimit = some limit) {acts : List JobAct}
    (hwhole : (j.run acts).broken = false)
    (hstop : ∀ s ∈ coverage (j.steps acts), s.act ≠ .stop) :
    Rationed plan limit.toNat (coverage (j.steps acts))
      ∧ ∀ account, (j.run acts).spins account
          = min limit.toNat (callsOf (coverage (j.steps acts)) (some account)).length
        ∧ (j.run acts).spins account < UInt32.size := by
  have hrations := rations_of_run hbuild hlimit hwhole
  have hrationed := hrations.rationed hstop
  refine ⟨hrationed, fun account => ?_⟩
  obtain ⟨state, hsweeps, -⟩ := hrations.quested
  have hspins : (j.run acts).spins account
      = min limit.toNat (callsOf (coverage (j.steps acts)) (some account)).length := by
    rw [spins, hsweeps.duty]
    dsimp only
    rw [hsweeps.tally (by simp [hlimit]), handed]
    exact hrationed.tally account
  have hword : limit.toNat < UInt32.size := limit.toNat_lt
  exact ⟨hspins, by omega⟩

/-- A limit of two quests. After a stop and a reload account `a` checks in three times, with others in
    between: the third time it is idle, and two are counted. -/
theorem spinLimit_exact_reloaded :
    let plan : JobPlan :=
      { definition := { name := "stops", kind := .autoQuest, settings := { spinLimit := some 2 } }
        area := .polygons [[⟨0, 0⟩, ⟨0, 2⟩, ⟨2, 2⟩]] }
    let noon := Instant.ofSeconds 43200
    let j := plan.job (.quests { offset := 0, today := ⟨0, by decide, by decide⟩ })
    let acts : List JobAct :=
      [.task (some "a") noon, .stop, .task (some "a") noon, .reload, .task (some "a") noon,
        .task (some "b") noon, .task (some "a") noon, .task none noon, .task (some "a") noon]
    (j.run acts).broken = false ∧ (∀ s ∈ coverage (j.steps acts), s.act ≠ .stop)
      ∧ (callsOf (coverage (j.steps acts)) (some "a")).length = 3
      ∧ Rationed plan 2 (coverage (j.steps acts)) ∧ (j.run acts).spins "a" = 2 := by
  intro plan noon j acts
  have hbuild : JobBuilder.autoQuest.build plan noon = .ok j := rfl
  have hlimit : plan.definition.settings.spinLimit = some 2 := rfl
  have hwhole : (j.run acts).broken = false := by decide +kernel
  have hasked : (coverage (j.steps acts)).all (fun s => !s.act.aside) = true := by decide +kernel
  have hstop : ∀ s ∈ coverage (j.steps acts), s.act ≠ .stop := by
    intro s hs hact
    have haside := List.all_eq_true.1 hasked s hs
    rw [hact] at haside
    cases haside
  have hcalls : (callsOf (coverage (j.steps acts)) (some "a")).length = 3 := by decide +kernel
  obtain ⟨hrationed, hspins⟩ := spinLimit_exact hbuild hlimit hwhole hstop
  refine ⟨hwhole, hstop, hcalls, hrationed, ?_⟩
  rw [(hspins "a").1, hcalls]
  rfl

end Job

end ScanFleet
