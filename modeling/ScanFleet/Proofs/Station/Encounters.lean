import ScanFleet.Proofs.Fleet.LiveJobs
import ScanFleet.Proofs.Job.Encounters
import ScanFleet.Proofs.Station.Definitions

set_option autoImplicit false

/-! # Encounter queues through runs of a station

However a station without live jobs got where it is, each of its live jobs keeps its queue in order
(`Job.Orderly`). So a check that is reported to the station takes the checked encounter out of the queue
of every instance whose area contains the place of the check, and changes no queue otherwise
(`Station.waiting_checked`). The place that counts is that of the check, not that of the sighting which
was queued: a check that is reported from outside leaves the encounter where it was. -/

namespace ScanFleet

/-- What can happen to the jobs of a station. -/
inductive Dealing where
  | ask (request : Request)
  /-- Whoever holds a job, live or retired, does something with it. -/
  | act (handle : Fleet.JobHandle) (a : JobAct)
  /-- Whoever holds a job asks how it is doing. -/
  | look (handle : Fleet.JobHandle)
  /-- The statuses are reported in the background. When the clock shows nothing, that breaks a job. -/
  | report

namespace Station

/-- The station after something was done with a job that somebody holds. -/
def useHeld (s : Station) (handle : Fleet.JobHandle) (change : Job → Option Handout × Job) : Station :=
  match s.fleet.held? handle with
  | none => s
  | some job =>
    let kept := s.fleet.keepHeld handle (change job).2
    { s with fleet :=
        if (change job).1.any (·.completes) then kept.noteCompletion job.name else kept }

/-- The station after a dealing. -/
def deal (s : Station) : Dealing → Station
  | .ask request => s.serve request
  | .act handle a => s.useHeld handle (·.act a)
  | .look handle => s.useHeld handle fun job => (none, (job.status s.now).2)
  | .report => s.report.2

/-- The station after dealings of any kind, in any order. -/
def dealt (s : Station) (dealings : List Dealing) : Station := dealings.foldl deal s

end Station

/-! ## What holds of every live job -/

namespace Job.Lasting

variable {P : Job → Prop} {s : Station}

theorem step (h : Lasting P) (hs : s.fleet.AllLive P) (operation : Operation) :
    (s.step operation).fleet.AllLive P := by
  cases hmanages : operation.manages with
  | false => exact h.of_sameWork hs (s.sameWork_step hmanages)
  | true =>
    cases operation with
    | start => exact h.start hs s.now
    | stop => exact Fleet.allLive_of_no_jobs rfl
    | restart =>
      have hstopped :
          ({ s.fleet.stop with lookups := s.fleet.stop.lookups.refresh } : Fleet).AllLive P :=
        Fleet.allLive_of_no_jobs rfl
      exact h.start hstopped s.now
    | addInstance definition => exact h.addInstance hs definition s.now
    | replaceInstance definition old => exact h.replaceInstance hs definition old s.now
    | removeInstance name => exact h.of_sameWork (hs.removeInstance name) (s.sameWork_removeInstance name)
    | _ => cases hmanages

theorem serve (h : Lasting P) (hs : s.fleet.AllLive P) (request : Request) :
    (s.serve request).fleet.AllLive P := by
  cases request with
  | operate operation => exact h.step hs operation
  | locate uuid place => exact hs.locate uuid place s.now
  | checkIn uuid account => exact h.checkIn hs uuid account s.now
  | sighting sighting => exact hs.map _ fun _ hjob => h.act (.sighting sighting s.now) hjob
  | checked sighting => exact hs.map _ fun _ hjob => h.act (.checked sighting s.now) hjob
  | status name => exact h.status? hs name s.now
  | statuses => exact h.statusesOf hs s.now _

theorem useHeld (hs : s.fleet.AllLive P) {handle : Fleet.JobHandle}
    {change : Job → Option Handout × Job} (hchange : ∀ job, P job → P (change job).2) :
    (s.useHeld handle change).fleet.AllLive P := by
  unfold Station.useHeld
  split
  · exact hs
  · rename_i job hheld
    have hkept := hs.keepHeld hheld (hchange job)
    dsimp only
    split
    · exact hkept.of_jobs_eq rfl
    · exact hkept

theorem deal (h : Lasting P) (hs : s.fleet.AllLive P) (dealing : Dealing) :
    (s.deal dealing).fleet.AllLive P := by
  cases dealing with
  | ask request => exact h.serve hs request
  | act handle a => exact useHeld hs fun _ hjob => h.act a hjob
  | look handle => exact useHeld hs fun _ hjob => h.status s.now hjob
  | report =>
    show s.report.2.fleet.AllLive P
    unfold Station.report
    split
    · rename_i hreported
      exact (h.statusesByClock? hs hreported).of_jobs_eq rfl
    · exact h.breakClockJob hs

theorem dealt (h : Lasting P) (hs : s.fleet.AllLive P) (dealings : List Dealing) :
    (s.dealt dealings).fleet.AllLive P := by
  induction dealings generalizing s with
  | nil => exact hs
  | cons dealing rest ih => exact ih (h.deal hs dealing)

end Job.Lasting

theorem Job.lasting_orderly : Lasting Orderly where
  built h := orderly_of_build h
  unmanned hj hsame := by
    have harea := congrArg Job.area hsame
    have hduty := congrArg Job.duty hsame
    exact hj.of_eq harea hduty
  act a hj := hj.act a
  status now hj := hj.status now
  broken hj := hj.of_eq rfl rfl

/-! ## Checks -/

namespace Fleet

/-- The queue of an instance; empty when it has no live job that keeps one. -/
def waiting (f : Fleet) (name : String) : EncounterQueue :=
  ((f.jobs.get? name).map Job.waiting).getD []

/-- Whether a place lies in the area of a live job. -/
def covers (f : Fleet) (name : String) (place : Coordinate) : Bool :=
  (f.jobs.get? name).any (·.area.contains place)

variable {f : Fleet}

theorem waiting_addIv (h : f.AllLive Job.Orderly) (s : Sighting) (now : Instant) (name : String) :
    (f.addIv s now).waiting name
      = if f.covers name s.place then
          (f.waiting name).filter fun e => e.sighting.encounter != s.encounter
        else f.waiting name := by
  have hafter : (f.addIv s now).jobs.get? name = (f.jobs.get? name).map (·.addIv s now) :=
    f.jobs.get?_map _ (Job.key_addIv now s) name
  unfold waiting covers
  rw [hafter]
  cases hjob : f.jobs.get? name with
  | none => rfl
  | some job => exact (h name job hjob).waiting_addIv s now

/-- What is shown of the queues are the sightings that wait, in order. -/
theorem queue_eq (h : f.AllLive Job.Orderly) (name : String) :
    f.queue name = (f.waiting name).map (·.sighting) := by
  unfold queue waiting
  cases hjob : f.jobs.get? name with
  | none => rfl
  | some job => exact (h name job hjob).queue?_getD

end Fleet

namespace Station

/-- A checked encounter leaves the queues. In whatever state a station without live jobs has come to, a
    check that is reported takes all entries of the checked encounter out of the queue of each instance
    whose area contains the place of the check. All other entries of all queues stay, in order, and the
    sightings of the entries are what the queues show. -/
theorem waiting_checked (s : Station) (hjobs : s.fleet.jobs = .empty) (dealings : List Dealing)
    (check : Sighting) (name : String) :
    let before := (s.dealt dealings).fleet
    let after := ((s.dealt dealings).serve (.checked check)).fleet
    after.waiting name
        = (if before.covers name check.place then
            (before.waiting name).filter fun e => e.sighting.encounter != check.encounter
          else before.waiting name)
      ∧ before.queue name = (before.waiting name).map (·.sighting)
      ∧ after.queue name = (after.waiting name).map (·.sighting) := by
  intro before after
  have hbefore : before.AllLive Job.Orderly :=
    Job.lasting_orderly.dealt (Fleet.allLive_of_no_jobs hjobs) dealings
  have hafter : after.AllLive Job.Orderly := Job.lasting_orderly.serve hbefore (.checked check)
  exact ⟨Fleet.waiting_addIv hbefore check _ name, Fleet.queue_eq hbefore name,
    Fleet.queue_eq hafter name⟩

/-! ### Two areas that overlap -/

/-- Two stored instances for individual values, whose areas have a square in common. -/
def twoAreas : Station :=
  let corner (lat lon : Int) : Json := .object [("lat", .int lat), ("lon", .int lon)]
  let square (name : String) (low high : Int) : Geofence :=
    ⟨name, .polygon,
      .list [.list [corner low low, corner low high, corner high high, corner high low]]⟩
  ofTables (.ofSeed {
    instances := [⟨"A", .pokemonIv, { geofences := ["south"], ivList := some "rare" }⟩,
      ⟨"B", .pokemonIv, { geofences := ["north"], ivList := some "rare" }⟩]
    geofences := [square "south" 0 4, square "north" 2 6]
    ivLists := [⟨"rare", [25, 7]⟩] }) {}

/-- Three creatures are seen, the first two in both areas. -/
def threeSightings : List Dealing :=
  [.ask (.operate .start), .ask (.sighting { encounter := "e1", species := 25, place := ⟨3, 3⟩ }),
    .ask (.sighting { encounter := "e2", species := 7, place := ⟨3, 3⟩ }),
    .ask (.sighting { encounter := "e3", species := 25, place := ⟨1, 1⟩ })]

/-- A check in the first area only takes its encounter out of the first queue only. -/
theorem waiting_checked_twoAreas :
    twoAreas.fleet.jobs = .empty ∧
      let check : Sighting := { encounter := "e1", species := 25, place := ⟨1, 1⟩ }
      let before := twoAreas.dealt threeSightings
      let after := (before.serve (.checked check)).fleet
      (before.fleet.queue "A").map (·.encounter) = ["e1", "e3", "e2"]
        ∧ (after.queue "A").map (·.encounter) = ["e3", "e2"]
        ∧ (after.queue "B").map (·.encounter) = ["e1", "e2"] := by
  have hjobs : twoAreas.fleet.jobs = .empty := rfl
  refine ⟨hjobs, ?_⟩
  intro check before after
  have hinside : before.fleet.covers "A" check.place = true := by decide +kernel
  have houtside : before.fleet.covers "B" check.place = false := by decide +kernel
  obtain ⟨hsouth, hshown, hleft⟩ := waiting_checked twoAreas hjobs threeSightings check "A"
  obtain ⟨hnorth, -, hkept⟩ := waiting_checked twoAreas hjobs threeSightings check "B"
  refine ⟨?_, ?_, ?_⟩
  · show (before.fleet.queue "A").map _ = _
    rw [hshown]
    decide +kernel
  · show (after.queue "A").map _ = _
    rw [hleft, hsouth, if_pos hinside]
    decide +kernel
  · show (after.queue "B").map _ = _
    rw [hkept, hnorth, if_neg (ne_true_of_eq_false houtside)]
    decide +kernel

/-- The encounter waits for the second area still, whose devices will be sent to it again. -/
theorem waits_after_check :
    ¬ ∀ name, ∀ e ∈ ((twoAreas.dealt threeSightings).serve
        (.checked { encounter := "e1", species := 25, place := ⟨1, 1⟩ })).fleet.waiting name,
      e.sighting.encounter ≠ "e1" := by
  intro hall
  have hwaits : ((twoAreas.dealt threeSightings).serve
      (.checked { encounter := "e1", species := 25, place := ⟨1, 1⟩ })).fleet.waiting "B"
        |>.any (·.sighting.encounter == "e1") := by decide +kernel
  obtain ⟨e, he, hsame⟩ := List.any_eq_true.1 hwaits
  exact hall "B" e he (by simpa using hsame)

end Station

end ScanFleet
