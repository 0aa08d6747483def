import ScanFleet.Proofs.Job.Run

set_option autoImplicit false

/-! # Stopped jobs

A job that is stopped stays stopped until it is reloaded. Whoever checks in, the job looks first whether
it is stopped: before a quest job looks at the date, which would start its patrol over, and before an
encounter queue is asked for its first entry. Orders reach the crew alone, and sightings and checks the
queue alone. So nothing but crew and queue of a stopped job changes (`Job.core`), and no device gets
work. -/

namespace ScanFleet

/-- A duty apart from its encounter queue: which species are wanted where, and how many, but not what is
    queued. -/
def Duty.emptied : Duty → Duty
  | .encounters desk _ => .encounters { desk with sequence := 0 } {}
  | duty => duty

namespace Job

/-- A job apart from its crew and its encounter queue. What is left is the definition, the position on
    the route, and what the duty counts. -/
def core (j : Job) : Job :=
  { j with patrol := { j.patrol with crew := .empty }, duty := j.duty.emptied }

/-- A job that is stopped, and takes orders still. -/
structure Parked (j : Job) : Prop where
  unbroken : j.broken = false
  stopped : j.stopped = true

theorem core_order (j : Job) {f : Patrol → Patrol}
    (hf : { f j.patrol with crew := .empty } = { j.patrol with crew := .empty }) :
    (j.order f).core = j.core := by
  unfold order
  split
  · rfl
  · simp only [core, hf]

theorem core_addSighting (j : Job) (s : Sighting) (time : Instant) :
    (j.addSighting s time).core = j.core := by
  unfold addSighting
  split
  · rename_i desk store hduty
    -- the queue numbers its next entry, and keeps to its list, area and limit
    have hdesk : { (desk.offer store s time).1 with sequence := 0 } = { desk with sequence := 0 } := by
      unfold IvDesk.offer IvDesk.consider
      split
      · rfl
      · split
        · rfl
        · unfold IvDesk.enqueue
          dsimp only
          split <;> rfl
    simp only [core, hduty, Duty.emptied, hdesk]
  · rfl

theorem core_addIv (j : Job) (s : Sighting) (time : Instant) :
    (j.addIv s time).core = j.core := by
  unfold addIv
  split
  · rename_i desk store hduty
    simp only [core, hduty, Duty.emptied]
  · rfl

namespace Parked

variable {j k : Job}

/-- Neither the crew nor the queue decides whether a job is stopped. -/
theorem of_core (h : j.Parked) (hcore : k.core = j.core) : k.Parked := by
  have hbroken : k.core.broken = j.core.broken := by rw [hcore]
  have hstopped : k.core.stopped = j.core.stopped := by rw [hcore]
  exact ⟨hbroken.trans h.unbroken, hstopped.trans h.stopped⟩

theorem handOut (h : j.Parked) (account : Option String) (time : Instant) :
    j.handOut account time = (some { task := .idle }, j) := by
  rw [Job.handOut, if_pos (.inr h.stopped)]

theorem status (h : j.Parked) (time : Instant) : j.status time = ("Stopped", j) := by
  simp [Job.status, h.unbroken, h.stopped]

theorem core_stop (h : j.Parked) : j.stop.core = j.core := by
  have hstopped : j.patrol.stopped = true := h.stopped
  refine j.core_order ?_
  simp [Patrol.stop, hstopped]

/-- Whatever is done with a stopped job, reloads apart, changes its crew and its queue at most. -/
theorem core_act (h : j.Parked) {a : JobAct} (ha : a ≠ .reload) : (j.act a).2.core = j.core := by
  cases a with
  | task account time =>
    show (j.handOut account time).2.core = j.core
    rw [h.handOut]
  | reload => exact absurd rfl ha
  | stop => exact h.core_stop
  | attach uuid => exact j.core_order rfl
  | detach uuid => exact j.core_order rfl
  | sighting s time => exact j.core_addSighting s time
  | checked s time => exact j.core_addIv s time

/-- A stopped job answers every check-in, with an idle task, and signals nothing. -/
theorem answers {s : JobStep} (h : s.job.Parked) :
    s.signal? = none
      ∧ ∀ account time, s.act = .task account time → s.handout? = some { task := .idle } := by
  obtain ⟨account, time, hact⟩ | hact | haside := s.act.cases
  · obtain ⟨hidle, -, -⟩ := JobStep.of_stopped hact h.stopped
    exact ⟨(JobStep.silent_of_idle hidle).signal, fun _ _ _ => hidle⟩
  · refine ⟨(JobStep.of_reload hact h.unbroken).1.signal, fun account time htask => ?_⟩
    rw [hact] at htask
    cases htask
  · refine ⟨(JobStep.of_aside haside).1.signal, fun account time htask => ?_⟩
    rw [htask] at haside
    cases haside

theorem run (h : j.Parked) {acts : List JobAct} (hacts : .reload ∉ acts) :
    (∀ s ∈ j.steps acts, s.job.Parked) ∧ (j.run acts).core = j.core := by
  induction acts generalizing j with
  | nil => exact ⟨fun s hs => absurd hs List.not_mem_nil, rfl⟩
  | cons a rest ih =>
    obtain ⟨hfirst, hrest⟩ := not_or.1 (mt List.mem_cons.2 hacts)
    have hcore := h.core_act (Ne.symm hfirst)
    obtain ⟨hsteps, hrun⟩ := ih (h.of_core hcore) hrest
    refine ⟨fun s hs => ?_, hrun.trans hcore⟩
    rcases List.mem_cons.1 hs with rfl | hs
    · exact h
    · exact hsteps s hs

end Parked

theorem parked_stop {j : Job} (h : j.broken = false) : j.stop.Parked := by
  constructor
  · simp [stop, order, h]
  · simp [stop, order, h, stopped, Patrol.stop]

/-- Stopped means stopped. Whatever is done with a job that was stopped, until it is reloaded: nobody
    gets work at any time, no completion is signalled, the status says that the job is stopped, and
    position and counts are those that it was stopped with. -/
theorem stopped_until_reload {j : Job} (hunbroken : j.broken = false) {acts : List JobAct}
    (hacts : .reload ∉ acts) :
    (∀ s ∈ j.stop.steps acts, s.signal? = none
        ∧ ∀ account time, s.act = .task account time → s.handout? = some { task := .idle })
      ∧ (∀ time, (j.stop.run acts).status time = ("Stopped", j.stop.run acts))
      ∧ (j.stop.run acts).core = { j.core with patrol := j.core.patrol.stop } := by
  have hparked := parked_stop hunbroken
  obtain ⟨hsteps, hcore⟩ := hparked.run hacts
  refine ⟨fun s hs => (hsteps s hs).answers, (hparked.of_core hcore).status, ?_⟩
  rw [hcore]
  simp only [core, stop, order, hunbroken, Bool.false_eq_true, if_false, Patrol.stop]

/-- A quest job is stopped at its second stop. The next day does not start another pass, neither for the
    account that was counted nor for anybody else. -/
theorem stopped_overMidnight :
    let plan : JobPlan :=
      { definition := { name := "stops", kind := .autoQuest, settings := { spinLimit := some 1 } }
        area := .polygons [[⟨0, 0⟩, ⟨0, 2⟩, ⟨2, 2⟩]] }
    let late := Instant.ofSeconds 86000
    let early := Instant.ofSeconds 86500
    let j := (plan.job (.quests { offset := 0, today := ⟨0, by decide, by decide⟩ })).run
      [.task (some "a") late]
    let acts : List JobAct :=
      [.task (some "b") late, .attach "d1", .task (some "a") early, .stop, .task none early]
    j.broken = false ∧ .reload ∉ acts
      ∧ (∀ s ∈ j.stop.steps acts, s.signal? = none
        ∧ ∀ account time, s.act = .task account time → s.handout? = some { task := .idle })
      ∧ ((j.stop.run acts).status early).1 = "Stopped" ∧ (j.stop.run acts).patrol.cursor = 1 := by
  intro plan late early j acts
  have hunbroken : j.broken = false := by decide +kernel
  have hacts : .reload ∉ acts := by simp [acts]
  obtain ⟨hsteps, hstatus, hcore⟩ := stopped_until_reload hunbroken hacts
  refine ⟨hunbroken, hacts, hsteps, by rw [hstatus early], ?_⟩
  have hcursor : (j.stop.run acts).core.patrol.cursor = j.patrol.cursor := by rw [hcore]; rfl
  have hsecond : j.patrol.cursor = 1 := by decide +kernel
  exact hcursor.trans hsecond

/-- A job with a queued encounter does not hand it out once it is stopped. -/
example :
    let plan : JobPlan :=
      { definition := { name := "ivs", kind := .pokemonIv, settings := {} }
        area := .polygons [[⟨0, 0⟩, ⟨0, 2⟩, ⟨2, 2⟩, ⟨2, 0⟩]] }
    let desk : IvDesk := { list := ⟨"rare", [25]⟩, area := plan.area, limit := 10 }
    let now := Instant.ofSeconds 0
    let j := (plan.job (.encounters desk {})).addSighting
      { encounter := "e1", species := 25, place := ⟨1, 1⟩ } now
    (j.queue?.map List.length = some 1 ∧ (j.handOut none now).1 ≠ some { task := .idle })
      ∧ (j.stop.handOut none now).1 = some { task := .idle } := by
  decide +kernel

end Job

end ScanFleet
