import ScanFleet.Proofs.Fleet.Definitions
import ScanFleet.Proofs.Station.Lineage

set_option autoImplicit false

/-! # Current definitions through runs of a station

Whatever a station without live jobs is asked, every live job was built from the definition of its
instance exactly as long as no request outruns a job (`Station.current_served_iff`). Three operations
can: loading, adding and replacing instances file a definition, and the job that is live under its name
goes on when no new one can be built. -/

namespace ScanFleet

/-- What a station is asked: to carry out an operation, by a device at work, or how it is doing. -/
inductive Request where
  | operate (operation : Operation)
  /-- A device tells where it is. -/
  | locate (uuid : String) (place : Coordinate)
  /-- A device asks for a task. -/
  | checkIn (uuid : String) (account : Option String)
  | sighting (s : Sighting)
  /-- The individual values of an encounter were checked. -/
  | checked (s : Sighting)
  | status (name : String)
  | statuses

/-- The operation files a definition under the name of a job that was built from another one, and
    builds no job from it. -/
def Operation.Outruns (s : Station) : Operation → Prop
  | start => s.fleet.Outruns s.now
  | addInstance definition =>
    (s.fleet.addInstance definition s.now).1 ≠ .ok () ∧ s.fleet.RunsOther definition
  | replaceInstance definition old =>
    (s.fleet.replaceInstance definition old s.now).1 ≠ .ok () ∧ definition.name ≠ old
      ∧ s.fleet.RunsOther definition
  | _ => False

def Request.Outruns (s : Station) : Request → Prop
  | operate operation => operation.Outruns s
  | _ => False

namespace Station

/-- The station after a request, whatever its answer. -/
def serve (s : Station) : Request → Station
  | .operate operation => s.step operation
  | .locate uuid place => (s.onFleet (s.fleet.locate uuid place s.now)).2
  | .checkIn uuid account => (s.onFleet (s.fleet.checkIn uuid account s.now)).2
  | .sighting sighting => { s with fleet := s.fleet.addSighting sighting s.now }
  | .checked sighting => { s with fleet := s.fleet.addIv sighting s.now }
  | .status name => (s.onFleet (s.fleet.status? name s.now)).2
  | .statuses => (s.onFleet (s.fleet.statuses s.now)).2

/-- The station before the first and after every request. -/
def served (s : Station) : List Request → List Station
  | [] => [s]
  | request :: rest => s :: (s.serve request).served rest

theorem self_mem_served (s : Station) (requests : List Request) : s ∈ s.served requests := by
  cases requests with
  | nil => exact List.mem_singleton_self s
  | cons request rest => exact List.mem_cons_self

/-- No request outruns a job in the state that it meets. -/
def KeepsUp (s : Station) : List Request → Prop
  | [] => True
  | request :: rest => ¬ request.Outruns s ∧ (s.serve request).KeepsUp rest

variable {s : Station}

theorem not_outruns_of_not_manages {operation : Operation} (h : operation.manages = false) :
    ¬ operation.Outruns s := by
  cases operation <;> first | exact id | cases h

/-- An operation keeps the live jobs current exactly when it outruns none. -/
theorem current_step_iff (h : s.fleet.Current) (operation : Operation) :
    (s.step operation).fleet.Current ↔ ¬ operation.Outruns s := by
  cases hmanages : operation.manages with
  | false =>
    have hsame := (s.sameWork_step hmanages).sameDefinitions
    exact iff_of_true ((Fleet.current_congr hsame).2 h) (not_outruns_of_not_manages hmanages)
  | true =>
    cases operation with
    | start => exact Fleet.current_start_iff h s.now
    | stop => exact iff_of_true (Fleet.current_of_no_jobs rfl) id
    | restart => exact iff_of_true (s.fleet.current_restart s.now) id
    | addInstance definition => exact Fleet.current_addInstance_iff h definition s.now
    | replaceInstance definition old => exact Fleet.current_replaceInstance_iff h definition old s.now
    | removeInstance name =>
      have hsame := (s.sameWork_removeInstance name).sameDefinitions
      exact iff_of_true ((Fleet.current_congr hsame).2 (h.removeInstance name)) id
    | _ => cases hmanages

theorem current_serve_iff (h : s.fleet.Current) (request : Request) :
    (s.serve request).fleet.Current ↔ ¬ request.Outruns s := by
  -- apart from operations, requests leave the definitions of the live jobs alone
  have hkeeps : ∀ f : Fleet, s.fleet.SameDefinitions f → (f.Current ↔ ¬ False) := fun f hsame =>
    iff_of_true ((Fleet.current_congr hsame).2 h) id
  cases request with
  | operate operation => exact current_step_iff h operation
  | locate uuid place => exact hkeeps _ (s.fleet.sameDefinitions_locate uuid place s.now)
  | checkIn uuid account => exact hkeeps _ (s.fleet.sameDefinitions_checkIn uuid account s.now)
  | sighting sighting =>
    exact hkeeps _ (s.fleet.sameDefinitions_map _ fun job => job.definition_addSighting sighting s.now)
  | checked sighting =>
    exact hkeeps _ (s.fleet.sameDefinitions_map _ fun job => job.definition_addIv sighting s.now)
  | status name => exact hkeeps _ (s.fleet.sameDefinitions_status? name s.now)
  | statuses => exact hkeeps _ (s.fleet.sameDefinitions_statusesOf s.now _)

theorem current_served_iff_of_current (h : s.fleet.Current) (requests : List Request) :
    (∀ t ∈ s.served requests, t.fleet.Current) ↔ s.KeepsUp requests := by
  induction requests generalizing s with
  | nil => simpa [served, KeepsUp] using h
  | cons request rest ih =>
    unfold served KeepsUp
    constructor
    · intro hall
      have hrest : ∀ t ∈ (s.serve request).served rest, t.fleet.Current :=
        fun t ht => hall t (List.mem_cons_of_mem s ht)
      have hnext := hrest _ (self_mem_served _ rest)
      exact ⟨(current_serve_iff h request).1 hnext, (ih hnext).1 hrest⟩
    · rintro ⟨hnot, hkeeps⟩ t ht
      rcases List.mem_cons.1 ht with rfl | hlater
      · exact h
      · exact (ih ((current_serve_iff h request).2 hnot)).2 hkeeps t hlater

/-- Whatever a station is asked that has no live jobs to begin with, the live jobs are current in every
    state exactly when no request outruns one. -/
theorem current_served_iff (s : Station) (hjobs : s.fleet.jobs = .empty) (requests : List Request) :
    (∀ t ∈ s.served requests, t.fleet.Current) ↔ s.KeepsUp requests :=
  current_served_iff_of_current (Fleet.current_of_no_jobs hjobs) requests

/-! ### A job that is outrun -/

/-- The first circle is to become one for raids, around a geofence that is not stored. -/
def strayEdit : List Request :=
  [.operate .start,
    .operate (.addInstance ⟨"A", .circleRaid, { geofences := ["nowhere"] }⟩), .statuses]

theorem current_strayEdit_iff :
    twoCircles.fleet.jobs = .empty ∧
      ((∀ t ∈ twoCircles.served strayEdit, t.fleet.Current) ↔ twoCircles.KeepsUp strayEdit) :=
  ⟨rfl, current_served_iff twoCircles rfl strayEdit⟩

/-- The job of the first definition goes on, and its status is told of an instance for raids. -/
theorem outrun_after_strayEdit :
    twoCircles.fleet.jobs = .empty ∧ ¬ ∀ t ∈ twoCircles.served strayEdit, t.fleet.Current := by
  refine ⟨rfl, fun hall => ?_⟩
  let last := (twoCircles.step .start).step
    (.addInstance ⟨"A", .circleRaid, { geofences := ["nowhere"] }⟩)
  have hcurrent : last.fleet.CurrentOn "A" :=
    hall last (List.mem_cons_of_mem _ (List.mem_cons_of_mem _ List.mem_cons_self)) "A"
  have hlive : (last.fleet.jobs.get? "A").map (·.kind) = some .circlePokemon := by decide +kernel
  have hfiled : (last.fleet.definitions.get? "A").map (·.kind) = some .circleRaid := by
    decide +kernel
  obtain ⟨job, hjob, hjobKind⟩ := Option.map_eq_some_iff.1 hlive
  obtain ⟨definition, hdefinition, hdefinitionKind⟩ := Option.map_eq_some_iff.1 hfiled
  have hsame : job.kind = definition.kind := by
    rw [Job.kind, hcurrent job definition hjob hdefinition]
    rfl
  rw [hjobKind, hdefinitionKind] at hsame
  cases hsame

example : ((strayEdit.foldl serve twoCircles).fleet.statuses (.ofSeconds 0)).1.head?
    = some ⟨"A", .circleRaid, "1 devices, lap 1, point 1/2", 1⟩ := by
  decide +kernel

end Station

end ScanFleet
