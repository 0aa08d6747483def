import ScanFleet.Proofs.Job.Run

set_option autoImplicit false

/-! # Quest passes

A quest job starts its pass over when it is reloaded, and with a check-in on another date than the last.
Both forget what accounts were given, and neither forgets how many passes are complete. On one date the
patrol and the spins of the accounts are told by the quests handed out since then (`Job.Sweeps`); the
step to another date is taken first (`Sweeps.onDate`), so that a check-in is always one on the date of
the job. -/

namespace ScanFleet

/-- The quest at a place. -/
def Instance.questScan (i : Instance) (place : Coordinate) : Task :=
  .scan .quest place i.settings.minLevel i.settings.maxLevel

/-- What the status of a quest job at work tells. -/
def questText (stop length passes hour : Nat) : String :=
  s!"Quests: stop {stop}/{length}, passes {passes}, local hour {String.ofList (paddedText 2 hour)}"

/-! ## Spins -/

/-- How many quests an account was given, by the count of a quest job. -/
def spinsOf (spins : Table (String × Nat)) (account : String) : Nat :=
  ((spins.get? account).map Prod.snd).getD 0

/-- Whether an account has had all the quests that an instance allows it, when `given` tells how many it
    was given. -/
def Instance.Spent (i : Instance) (account : Option String) (given : String → Nat) : Prop :=
  ∃ limit name, i.settings.spinLimit = some limit ∧ account = some name ∧ limit.toNat ≤ given name

theorem Instance.spent_congr (i : Instance) (account : Option String) {given told : String → Nat}
    (h : i.settings.spinLimit ≠ none → ∀ name, given name = told name) :
    i.Spent account given ↔ i.Spent account told := by
  constructor
  · rintro ⟨limit, name, hlimit, haccount, hle⟩
    refine ⟨limit, name, hlimit, haccount, ?_⟩
    rw [← h (by simp [hlimit])]
    exact hle
  · rintro ⟨limit, name, hlimit, haccount, hle⟩
    refine ⟨limit, name, hlimit, haccount, ?_⟩
    rw [h (by simp [hlimit])]
    exact hle

theorem Instance.spent_iff {i : Instance} {limit : UInt32} (h : i.settings.spinLimit = some limit)
    (account : Option String) (given : String → Nat) :
    i.Spent account given ↔ ∃ name, account = some name ∧ limit.toNat ≤ given name := by
  constructor
  · rintro ⟨other, name, hother, haccount, hle⟩
    rw [h] at hother
    cases hother
    exact ⟨name, haccount, hle⟩
  · rintro ⟨name, haccount, hle⟩
    exact ⟨limit, name, h, haccount, hle⟩

/-- How many of the steps an account checked in with. -/
def stepsOf (steps : List JobStep) (account : String) : Nat :=
  steps.countP fun s => decide (s.account? = some account)

theorem spinsOf_insert (spins : Table (String × Nat)) (account other : String) (count : Nat) :
    spinsOf (spins.insert (account, count)) other
      = if account = other then count else spinsOf spins other := by
  rw [spinsOf, Table.get?_insert]
  by_cases hsame : account = other
  · rw [if_pos hsame, if_pos (show key (account, count) = other from hsame)]
    rfl
  · rw [if_neg hsame, if_neg (show ¬ key (account, count) = other from hsame)]
    rfl

namespace Job

/-- Counting a quest: an account that has had its quests is refused, any other is given one more. -/
theorem spin?_cases (i : Instance) (account : Option String) (spins : Table (String × Nat)) :
    (i.Spent account (spinsOf spins) ∧ spin? i.settings.spinLimit account spins = none)
      ∨ (¬ i.Spent account (spinsOf spins) ∧ ∃ spins',
          spin? i.settings.spinLimit account spins = some spins'
            ∧ (i.settings.spinLimit ≠ none → ∀ other, spinsOf spins' other
              = spinsOf spins other + if account = some other then 1 else 0)) := by
  cases hlimit : i.settings.spinLimit with
  | none =>
    refine .inr ⟨?_, spins, rfl, fun hne => absurd rfl hne⟩
    rintro ⟨limit, name, hsome, -, -⟩
    rw [hlimit] at hsome
    cases hsome
  | some limit =>
    cases account with
    | none =>
      exact .inr ⟨by simp [Instance.spent_iff hlimit], spins, rfl, fun _ other => rfl⟩
    | some name =>
      have hspin : spin? (some limit) (some name) spins
          = if limit.toNat ≤ spinsOf spins name then none
            else some (spins.insert (name, spinsOf spins name + 1)) := rfl
      have hspent : i.Spent (some name) (spinsOf spins) ↔ limit.toNat ≤ spinsOf spins name := by
        simp [Instance.spent_iff hlimit]
      rw [hspin, hspent]
      by_cases hle : limit.toNat ≤ spinsOf spins name
      · exact .inl ⟨hle, if_pos hle⟩
      · refine .inr ⟨hle, _, if_neg hle, fun _ other => ?_⟩
        rw [spinsOf_insert]
        by_cases hother : name = other
        · rw [if_pos hother, if_pos (congrArg some hother), hother]
        · rw [if_neg hother, if_neg fun hsome => hother (Option.some.inj hsome), Nat.add_zero]

/-! ## A pass -/

/-- A quest job is as the quests tell that it has handed out since coverage started over. -/
structure Sweeps (j : Job) (plan : JobPlan) (given : List JobStep) (state : QuestState) : Prop where
  walks : j.Walks plan given.length
  duty : j.duty = .quests state
  offset : state.offset = plan.offset.getD 0
  tally : plan.definition.settings.spinLimit ≠ none →
    ∀ account, spinsOf state.spins account = stepsOf given account
  cycles : Cycles plan.area.route plan.definition.questScan given

variable {j : Job} {plan : JobPlan} {given : List JobStep} {state : QuestState}

/-- A quest job on a local date, before it hands out anything on it. -/
def onDate (j : Job) (state : QuestState) (today : Date) : Job :=
  { j with
    patrol := (questDay j.patrol state today).1
    duty := .quests (questDay j.patrol state today).2 }

/-- Another date starts the pass over. -/
theorem Sweeps.onDate (h : j.Sweeps plan given state) (hworks : j.stopped = false) (today : Date) :
    (j.onDate state today).Sweeps plan (if today = state.today then given else [])
        (questDay j.patrol state today).2
      ∧ (j.onDate state today).stopped = false ∧ (questDay j.patrol state today).2.today = today
      ∧ (questDay j.patrol state today).2.passes = state.passes := by
  rw [Job.onDate, questDay]
  split
  · rename_i hsame
    refine ⟨⟨?_, rfl, h.offset, h.tally, h.cycles⟩, hworks, hsame.symm, rfl⟩
    exact ⟨h.walks.definition, h.walks.area, h.walks.route, h.walks.unbroken, h.walks.position⟩
  · refine ⟨⟨?_, rfl, h.offset, fun _ _ => rfl, cycles_nil⟩, rfl, rfl, rfl⟩
    exact ⟨h.walks.definition, h.walks.area, h.walks.route, h.walks.unbroken, Patrol.at_reset _⟩

theorem questTask_onDate (j : Job) (state : QuestState) (today : Date) (account : Option String) :
    j.questTask state today account
      = (j.onDate state today).questTask (questDay j.patrol state today).2 today account := by
  have hday : (questDay j.patrol state today).2.today = today := by
    rw [questDay]
    split
    · rename_i hsame
      exact hsame.symm
    · rfl
  have hstays : questDay (j.onDate state today).patrol (questDay j.patrol state today).2 today
      = questDay j.patrol state today := by
    rw [questDay, if_pos hday.symm]
    rfl
  rw [questTask, questTask, hstays]
  rfl

/-- A check-in is one on the date of the job, once that has changed. -/
theorem Sweeps.handOut (h : j.Sweeps plan given state) (hworks : j.stopped = false)
    (account : Option String) {time : Instant} {today : Date}
    (htoday : time.localDate? state.offset = some today) :
    j.handOut account time = ((j.onDate state today).questTask (questDay j.patrol state today).2
      (questDay j.patrol state today).2.today account).map some id := by
  have hbusy : ¬ (j.broken = true ∨ j.stopped = true) := by simp [h.walks.unbroken, hworks]
  rw [(h.onDate hworks today).2.2.1, ← questTask_onDate, Job.handOut, if_neg hbusy, h.duty]
  dsimp only
  rw [htoday]

/-- A check-in beyond the calendar breaks a job at work. -/
theorem Sweeps.handOut_beyond (h : j.Sweeps plan given state) (hworks : j.stopped = false)
    (account : Option String) {time : Instant} (hdate : time.localDate? state.offset = none) :
    j.handOut account time = (none, { j with broken := true }) := by
  have hbusy : ¬ (j.broken = true ∨ j.stopped = true) := by simp [h.walks.unbroken, hworks]
  rw [Job.handOut, if_neg hbusy, h.duty]
  dsimp only
  rw [hdate]

/-- On its date a quest job hands out the next stop, unless the account has had its quests. -/
theorem Sweeps.questTask (h : j.Sweeps plan given state) (hroute : plan.area.route ≠ [])
    (hworks : j.stopped = false) (account : Option String) :
    (plan.definition.Spent account (stepsOf given)
        ∧ j.questTask state state.today account = ({ task := .idle }, j))
      ∨ (¬ plan.definition.Spent account (stepsOf given) ∧ ∃ place after spins,
          plan.area.route[given.length % plan.area.route.length]? = some place
            ∧ j.questTask state state.today account = (⟨plan.definition.questScan place,
                decide (plan.area.route.length ∣ given.length + 1)⟩, after)
            ∧ after.stopped = false ∧ after.Walks plan (given.length + 1)
            ∧ after.duty = .quests { state with
                spins
                passes := if plan.area.route.length ∣ given.length + 1 then state.passes + 1
                  else state.passes }
            ∧ (plan.definition.settings.spinLimit ≠ none → ∀ other, spinsOf spins other
              = stepsOf given other + if account = some other then 1 else 0)) := by
  have hstays : questDay j.patrol state state.today = (j.patrol, state) := if_pos rfl
  have hspent := plan.definition.spent_congr account h.tally
  have hcases := spin?_cases plan.definition account state.spins
  rw [← h.walks.definition] at hcases hspent ⊢
  rw [Job.questTask, hstays, ← hspent]
  dsimp only
  obtain ⟨hover, hnone⟩ | ⟨hmore, spins, hsome, hcount⟩ := hcases
  · left
    rw [hnone, ← h.duty]
    exact ⟨hover, rfl⟩
  · right
    obtain ⟨place, patrol, hplace, hadvance, hstill, hwalks⟩ := h.walks.advance hroute hworks
    rw [hsome, hadvance]
    simp only [decide_eq_true_eq]
    refine ⟨hmore, place, { j with patrol, duty := .quests { state with spins, passes := _ } }, spins,
      hplace, rfl, hstill, hwalks _, rfl, fun hlimit other => ?_⟩
    · rw [hcount hlimit, h.tally (h.walks.definition ▸ hlimit)]

/-! ## Steps -/

variable {steps : List JobStep} {s : JobStep}

/-- A check-in with which a quest job hands out nothing. -/
structure Refuses (s : JobStep) (plan : JobPlan) (given : List JobStep) (today : Date)
    (passes : Nat) : Prop where
  handout : s.handout? = some { task := .idle }
  works : s.after.stopped = false
  after : ∃ state, s.after.Sweeps plan given state ∧ state.today = today ∧ state.passes = passes

/-- A check-in with which a quest job hands out the next stop. -/
structure Serves (s : JobStep) (plan : JobPlan) (given : List JobStep) (today : Date)
    (passes : Nat) : Prop where
  work : s.work?.isSome = true
  signal : s.signal? = if plan.area.route.length ∣ given.length + 1 then some plan.definition.name
    else none
  works : s.after.stopped = false
  after : ∃ state, s.after.Sweeps plan (given ++ [s]) state ∧ state.today = today
    ∧ state.passes = if plan.area.route.length ∣ given.length + 1 then passes + 1 else passes

theorem stepsOf_append_singleton (given : List JobStep) (s : JobStep) (account : String) :
    stepsOf (given ++ [s]) account
      = stepsOf given account + if s.account? = some account then 1 else 0 := by
  rw [stepsOf, List.countP_append, List.countP_singleton]
  simp only [decide_eq_true_eq]
  rfl

/-- What a check-in at a quest job at work comes to: it starts the pass over on another date, and is
    refused exactly when its account has had its quests. -/
theorem Sweeps.checkIn (h : s.job.Sweeps plan (handed steps) state) (hroute : plan.area.route ≠ [])
    (hworks : s.job.stopped = false) {account : Option String} {time : Instant} {today : Date}
    (hact : s.act = .task account time) (htoday : time.localDate? state.offset = some today) :
    s.restarts = decide (today ≠ state.today)
      ∧ ((plan.definition.Spent account (stepsOf (handedBefore steps s))
          ∧ Refuses s plan (handedBefore steps s) today state.passes)
        ∨ (¬ plan.definition.Spent account (stepsOf (handedBefore steps s))
          ∧ Serves s plan (handedBefore steps s) today state.passes)) := by
  have hrestarts : s.restarts = decide (today ≠ state.today) := by
    simp [JobStep.restarts, hact, Job.restarts, newDay, h.walks.unbroken, hworks, h.duty, htoday]
  have hbefore : handedBefore steps s = if today = state.today then handed steps else [] := by
    rw [handedBefore, hrestarts]
    by_cases hsame : today = state.today
    · simp [hsame]
    · simp [hsame]
  obtain ⟨hday, hdayWorks, hdate, hpasses⟩ := h.onDate hworks today
  have hout := h.handOut hworks account htoday
  have hstep : s.job.act s.act = s.job.handOut account time := by rw [hact, Job.act]
  refine ⟨hrestarts, ?_⟩
  rw [hbefore, ← hpasses]
  generalize (if today = state.today then handed steps else []) = given at hday ⊢
  obtain ⟨hspent, hidle⟩ | ⟨hmore, place, after, spins, hplace, hquest, hstill, hwalks, hduty,
      htally⟩ := hday.questTask hroute hdayWorks account
  · left
    rw [hidle] at hout
    have hafter : s.after = s.job.onDate state today := congrArg Prod.snd (hstep.trans hout)
    refine ⟨hspent, congrArg Prod.fst (hstep.trans hout), ?_, _, ?_, hdate, rfl⟩
    · rw [hafter]
      exact hdayWorks
    · rw [hafter]
      exact hday
  · right
    rw [hquest] at hout
    obtain ⟨hafter, hwork, hsignal⟩ := JobStep.of_work (hstep.trans hout) (Task.scan_ne_idle _ _ _ _)
    have hduty : s.after.duty = _ := (congrArg Job.duty hafter).trans hduty
    refine ⟨hmore, Option.isSome_of_eq_some hwork, ?_, ?_, _, ⟨?_, hduty, hday.offset, ?_, ?_⟩,
      hdate, rfl⟩
    · have hname : after.name = plan.definition.name := congrArg Instance.name hwalks.definition
      rw [hsignal, id, hname]
      simp only [decide_eq_true_eq]
    · rw [hafter]
      exact hstill
    · rw [hafter, List.length_append, List.length_singleton]
      exact hwalks
    · intro hlimit other
      rw [htally hlimit, stepsOf_append_singleton, JobStep.account?, hact]
    · exact hday.cycles.append_singleton hplace hwork

/-- A quest job is as the steps of its run tell. -/
def Quested (j : Job) (plan : JobPlan) (steps : List JobStep) : Prop :=
  ∃ state, j.Sweeps plan (handed steps) state ∧ state.passes = (signals steps).length

theorem quested_of_build {now : Instant} (h : JobBuilder.autoQuest.build plan now = .ok j) :
    j.Quested plan [] := by
  unfold JobBuilder.build at h
  split at h
  · cases h
  · dsimp only at h
    split at h
    · obtain rfl := Except.ok.inj h
      exact ⟨_, ⟨walks_job plan _, rfl, rfl, fun _ _ => rfl, cycles_nil⟩, rfl⟩
    · cases h

/-- The instants of check-ins lie in the calendar of the zone of an instance. -/
def InCalendar (plan : JobPlan) (acts : List JobAct) : Prop :=
  ∀ account time, .task account time ∈ acts → (time.localDate? (plan.offset.getD 0)).isSome = true

theorem Sweeps.isIv (h : j.Sweeps plan given state) : j.isIv = false := by rw [Job.isIv, h.duty]

/-- Coverage goes on without anything being handed out. -/
theorem Sweeps.rests (h : s.job.Sweeps plan given state) (hrests : s.Rests plan given.length) :
    s.after.Sweeps plan given state :=
  ⟨hrests.walks, hrests.duty.trans h.duty, h.offset, h.tally, h.cycles⟩

/-- A reload starts the pass over and keeps the count of passes. -/
theorem Sweeps.reload (h : j.Sweeps plan given state) :
    j.reload.Sweeps plan [] { state with spins := .empty } where
  walks := h.walks.walks_reload
  duty := by
    rw [h.walks.reload, h.duty]
    rfl
  offset := h.offset
  tally := fun _ _ => rfl
  cycles := cycles_nil

theorem Sweeps.quested_of_rests (h : s.job.Sweeps plan (handed steps) state)
    (hpasses : state.passes = (signals steps).length)
    (hrests : s.Rests plan (handed steps).length) : s.after.Quested plan (steps ++ [s]) := by
  refine ⟨state, ?_, ?_⟩
  · rw [handed_of_silent hrests.silent hrests.onward]
    exact h.rests hrests
  · rw [signals_of_silent hrests.silent]
    exact hpasses

/-- Whatever is done with a quest job, it is as the steps tell. -/
theorem Quested.step (h : s.job.Quested plan steps) (hroute : plan.area.route ≠ [])
    (hcalendar : InCalendar plan [s.act]) : s.after.Quested plan (steps ++ [s]) := by
  obtain ⟨state, hsweeps, hpasses⟩ := h
  obtain hrests | hact | ⟨account, time, hact, hworks⟩ :=
    JobStep.cases_of_walks hsweeps.walks hsweeps.isIv
  · exact hsweeps.quested_of_rests hpasses hrests
  · obtain ⟨hsilent, hrestarts, hafter⟩ := JobStep.of_reload hact hsweeps.walks.unbroken
    refine ⟨{ state with spins := .empty }, ?_, ?_⟩
    · rw [handed_of_no_work hsilent.work, handedBefore_of_restarts hrestarts, hafter]
      exact hsweeps.reload
    · rw [signals_of_silent hsilent]
      exact hpasses
  · obtain ⟨today, htoday⟩ := Option.isSome_iff_exists.1
      (hcalendar account time (List.mem_singleton.2 hact.symm))
    rw [← hsweeps.offset] at htoday
    obtain ⟨-, ⟨-, hrefuses⟩ | ⟨-, hserves⟩⟩ := hsweeps.checkIn hroute hworks hact htoday
    · obtain ⟨after, hafter, -, hsame⟩ := hrefuses.after
      have hsilent := JobStep.silent_of_idle hrefuses.handout
      refine ⟨after, ?_, ?_⟩
      · rw [handed_of_no_work hsilent.work]
        exact hafter
      · rw [signals_of_silent hsilent, hsame, hpasses]
    · obtain ⟨after, hafter, -, hcount⟩ := hserves.after
      obtain ⟨task, hwork⟩ := Option.isSome_iff_exists.1 hserves.work
      refine ⟨after, ?_, ?_⟩
      · rw [handed_of_work hwork]
        exact hafter
      · rw [signals_append_singleton, hserves.signal, hcount, hpasses]
        split
        · rw [List.length_append]
          rfl
        · rw [Option.toList_none, List.append_nil]

/-- The date that a quest job keeps. -/
def questDate? (j : Job) : Option Date :=
  match j.duty with
  | .quests state => some state.today
  | _ => none

/-- A step is a reload, or a check-in at a quest job at work on another date than it keeps. -/
def StartsPass (plan : JobPlan) (s : JobStep) : Prop :=
  s.act = .reload ∨ ∃ account time, s.act = .task account time ∧ s.job.stopped = false
    ∧ time.localDate? (plan.offset.getD 0) ≠ s.job.questDate?

/-- What shows of a step of a quest job, after the steps since it was built. A reload starts the pass
    over, and so does a check-in at a job at work on another date than it keeps. A check-in is always
    answered, with work unless the job is stopped or the account has had its quests. The `k`th quest
    since the pass started over is at the place that follows, and the signal goes out when `k` is a
    multiple of the length of the route. The patrol stands at what was handed out; so what is not handed
    out does not move it. -/
structure QuestStep (plan : JobPlan) (earlier : List JobStep) (s : JobStep) : Prop where
  restarts : s.restarts = true ↔ StartsPass plan s
  answered : ∀ account time, s.act = .task account time → s.handout?.isSome = true
    ∧ (s.work? = none ↔ s.job.stopped = true
      ∨ plan.definition.Spent account (stepsOf (handedBefore earlier s)))
  work : ∀ task, s.work? = some task →
    ∃ place, plan.area.route[((handed (earlier ++ [s])).length - 1) % plan.area.route.length]?
        = some place
      ∧ task = plan.definition.questScan place
  signal : s.signal?
    = if s.work?.isSome ∧ plan.area.route.length ∣ (handed (earlier ++ [s])).length
        then some plan.definition.name else none
  position : s.after.patrol.At (handed (earlier ++ [s])).length
  stays : s.work? = none → s.restarts = false → s.after.patrol.cursor = s.job.patrol.cursor
    ∧ s.after.patrol.laps = s.job.patrol.laps

theorem QuestStep.of_silent {earlier : List JobStep} (h : s.Silent)
    (hrestarts : s.restarts = true ↔ StartsPass plan s)
    (hanswered : ∀ account time, s.act = .task account time → s.handout?.isSome = true
      ∧ (s.job.stopped = true ∨ plan.definition.Spent account (stepsOf (handedBefore earlier s))))
    (hposition : s.after.patrol.At (handed (earlier ++ [s])).length)
    (hstays : s.work? = none → s.restarts = false → s.after.patrol.cursor = s.job.patrol.cursor
      ∧ s.after.patrol.laps = s.job.patrol.laps) : QuestStep plan earlier s where
  restarts := hrestarts
  answered account time hact :=
    ⟨(hanswered account time hact).1, fun _ => (hanswered account time hact).2, fun _ => h.work⟩
  work task hwork := by
    rw [h.work] at hwork
    cases hwork
  signal := by
    rw [h.signal, h.work]
    rfl
  position := hposition
  stays := hstays

/-- Whatever is done with a quest job, it does as the steps tell. -/
theorem Quested.shows (h : s.job.Quested plan steps) (hroute : plan.area.route ≠ [])
    (hcalendar : InCalendar plan [s.act]) : QuestStep plan steps s := by
  obtain ⟨after, hafter, -⟩ := h.step hroute hcalendar
  obtain ⟨state, hsweeps, -⟩ := h
  have hposition := hafter.walks.position
  have hstays (hwork : s.work? = none) (honward : s.restarts = false) :
      s.after.patrol.cursor = s.job.patrol.cursor ∧ s.after.patrol.laps = s.job.patrol.laps := by
    have hearlier := hsweeps.walks.position
    rw [handed_of_no_work hwork, handedBefore_of_onward honward] at hposition
    rw [hposition.cursor, hposition.laps, hearlier.cursor, hearlier.laps, hafter.walks.route,
      hsweeps.walks.route]
    exact ⟨rfl, rfl⟩
  obtain hrests | hact | ⟨account, time, hact, hworks⟩ :=
    JobStep.cases_of_walks hsweeps.walks hsweeps.isIv
  · have hanswered := hrests.answered
    refine .of_silent hrests.silent ?_ (fun account time hact => ?_) hposition hstays
    · rw [hrests.onward]
      refine ⟨nofun, ?_⟩
      rintro (hreload | ⟨account, time, hact, hworks, -⟩)
      · exact absurd hreload hrests.act
      · rw [(hanswered account time hact).2] at hworks
        cases hworks
    · exact ⟨(hanswered account time hact).1, .inl (hanswered account time hact).2⟩
  · obtain ⟨hsilent, hrestarts, -⟩ := JobStep.of_reload hact hsweeps.walks.unbroken
    refine .of_silent hsilent ?_ (fun account time htask => ?_) hposition hstays
    · exact ⟨fun _ => .inl hact, fun _ => hrestarts⟩
    · rw [hact] at htask
      cases htask
  · obtain ⟨today, htoday⟩ := Option.isSome_iff_exists.1
      (hcalendar account time (List.mem_singleton.2 hact.symm))
    have hkeeps : s.job.questDate? = some state.today := by rw [questDate?, hsweeps.duty]
    have hrestarts : s.restarts = true ↔ StartsPass plan s := by
      rw [(hsweeps.checkIn hroute hworks hact (hsweeps.offset ▸ htoday)).1, decide_eq_true_eq]
      constructor
      · intro hother
        refine .inr ⟨account, time, hact, hworks, ?_⟩
        rw [htoday, hkeeps]
        exact fun hsame => hother (Option.some.inj hsame)
      · rintro (hreload | ⟨account, time, htask, -, hother⟩)
        · rw [hact] at hreload
          cases hreload
        · rw [hact] at htask
          cases htask
          rw [htoday, hkeeps] at hother
          exact fun hsame => hother (congrArg some hsame)
    obtain ⟨-, ⟨hspent, hrefuses⟩ | ⟨hmore, hserves⟩⟩ :=
      hsweeps.checkIn hroute hworks hact (hsweeps.offset ▸ htoday)
    · refine .of_silent (JobStep.silent_of_idle hrefuses.handout) hrestarts
        (fun account time htask => ?_) hposition hstays
      rw [hact] at htask
      cases htask
      exact ⟨by rw [hrefuses.handout]; rfl, .inr hspent⟩
    · obtain ⟨task, hwork⟩ := Option.isSome_iff_exists.1 hserves.work
      have hhanded := handed_of_work hwork steps
      refine ⟨hrestarts, fun account time htask => ?_, fun task htask => ?_, ?_, hposition, hstays⟩
      · rw [hact] at htask
        cases htask
        simp [JobStep.handout_of_work hwork, hwork, hworks, hmore]
      · obtain ⟨place, hplace, hdone⟩ := hafter.cycles.getLast hhanded
        exact ⟨place, hplace, Option.some.inj (htask.symm.trans hdone)⟩
      · rw [hserves.signal, hhanded, List.length_append, List.length_singleton, hwork]
        simp

theorem Quested.run (h : j.Quested plan steps) (hroute : plan.area.route ≠ []) {acts : List JobAct}
    (hcalendar : InCalendar plan acts) : (j.run acts).Quested plan (steps ++ j.steps acts) := by
  induction acts generalizing j steps with
  | nil =>
    rw [Job.steps, List.append_nil]
    exact h
  | cons a rest ih =>
    have hfirst : InCalendar plan [a] := fun account time hmem =>
      hcalendar account time (List.mem_cons.2 (.inl (List.mem_singleton.1 hmem)))
    have hrest := ih (Quested.step (s := ⟨j, a⟩) h hroute hfirst)
      fun account time hmem => hcalendar account time (List.mem_cons_of_mem a hmem)
    rw [List.append_assoc] at hrest
    exact hrest

theorem Quested.status (h : j.Quested plan steps) (hworks : j.stopped = false) (time : Instant) :
    (j.status time).1 = questText ((handed steps).length % plan.area.route.length)
      plan.area.route.length (signals steps).length (time.localHour (plan.offset.getD 0)) := by
  obtain ⟨state, hsweeps, hpasses⟩ := h
  unfold Job.status questText
  rw [hsweeps.walks.unbroken, hworks, hsweeps.duty, hsweeps.walks.position.cursor,
    hsweeps.walks.route, ← hpasses, ← hsweeps.offset]
  rfl

/-- Passes of a quest job. Whatever is done with it, every step shows what the steps before tell, and the
    status of a job at work counts the completions that were signalled since it was built. -/
theorem quest_passes {clock : Instant} (hbuild : JobBuilder.autoQuest.build plan clock = .ok j)
    {acts : List JobAct} (hcalendar : InCalendar plan acts) :
    (∀ earlier s later, j.steps acts = earlier ++ s :: later → QuestStep plan earlier s)
      ∧ ((j.run acts).stopped = false → ∀ time, ((j.run acts).status time).1
          = questText ((handed (j.steps acts)).length % plan.area.route.length)
            plan.area.route.length (signals (j.steps acts)).length
            (time.localHour (plan.offset.getD 0))) := by
  have hroute := JobBuilder.route_ne_nil hbuild
  have hquested {before : List JobAct} (hbefore : InCalendar plan before) :
      (j.run before).Quested plan (j.steps before) := (quested_of_build hbuild).run hroute hbefore
  refine ⟨fun earlier s later hsteps => ?_, (hquested hcalendar).status⟩
  obtain ⟨before, rest, rfl, rfl, hjob⟩ := steps_eq_append_cons hsteps
  refine Quested.shows ?_ hroute fun account time hmem => ?_
  · rw [hjob]
    exact hquested fun account time hmem =>
      hcalendar account time (List.mem_append_left (s.act :: rest) hmem)
  · refine hcalendar account time (List.mem_append_right before ?_)
    exact List.mem_cons.2 (.inl (List.mem_singleton.1 hmem))

/-- A job of three stops with a limit of two spins. An account uses up its spins, the pass is completed
    by others, the next day starts another, and a stop is made good by a reload. -/
theorem quest_passes_overMidnight :
    let plan : JobPlan :=
      { definition := { name := "stops", kind := .autoQuest, settings := { spinLimit := some 2 } }
        area := .polygons [[⟨0, 0⟩, ⟨0, 2⟩, ⟨2, 2⟩]] }
    let late := Instant.ofSeconds 86000
    let early := Instant.ofSeconds 86500
    let j := plan.job (.quests { offset := 0, today := ⟨0, by decide, by decide⟩ })
    let acts : List JobAct :=
      [.task (some "a") late, .task (some "a") late, .task (some "a") late, .task (some "b") late,
        .task (some "a") early, .stop, .task none early, .reload, .task none early]
    InCalendar plan acts ∧ signals (j.steps acts) = ["stops"] ∧ (j.run acts).stopped = false
      ∧ ((j.run acts).status early).1 = questText 1 3 1 0 := by
  intro plan late early j acts
  have hcalendar : InCalendar plan acts := by
    intro account time hmem
    simp only [acts, List.mem_cons, JobAct.task.injEq, reduceCtorEq, List.not_mem_nil, or_false,
      false_or] at hmem
    rcases hmem with ⟨-, rfl⟩ | ⟨-, rfl⟩ | ⟨-, rfl⟩ | ⟨-, rfl⟩ | ⟨-, rfl⟩ | ⟨-, rfl⟩ | ⟨-, rfl⟩
    all_goals rfl
  have hbuild : JobBuilder.autoQuest.build plan late = .ok j := rfl
  obtain ⟨-, hstatus⟩ := quest_passes hbuild hcalendar
  have hworks : (j.run acts).stopped = false := by decide +kernel
  have hgiven : (handed (j.steps acts)).length = 1 := by decide +kernel
  have hsignals : signals (j.steps acts) = ["stops"] := by decide +kernel
  have hlength : plan.area.route.length = 3 := rfl
  have hhour : early.localHour (plan.offset.getD 0) = 0 := by decide +kernel
  refine ⟨hcalendar, hsignals, hworks, ?_⟩
  rw [hstatus hworks, hgiven, hsignals, hlength, hhour]
  rfl

end Job

end ScanFleet
