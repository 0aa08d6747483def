import ScanFleet.Proofs.Fleet.Instances
import ScanFleet.Proofs.Fleet.Triggers
import ScanFleet.Station.Run

set_option autoImplicit false

/-! # Attachment through runs of a station

A station carries out one operation after another, and its surroundings change in between. Starting
without live jobs, the table of devices and the crews of the live jobs agree in every state of a run
exactly when no operation of the run lapses (`Station.agrees_states_iff`). Four operations can
lapse, each in one situation; all others, and every trigger of a rule, never do. -/

namespace ScanFleet

/-! ## Operations -/

/-- What is around a fleet and its jobs. -/
structure Surroundings where
  now : Instant
  localOffset : Int
  listener : Listener
  schedule : Schedule
  tables : Tables
  down : List StorageAccess
  lookups : Lookups

/-- What can happen to a station. -/
inductive Operation where
  | start
  | stop
  | restart
  | addInstance (definition : Instance)
  | replaceInstance (definition : Instance) (old : String)
  | removeInstance (name : String)
  | addDevice (device : Device)
  | replaceDevice (device : Device) (old : String)
  | removeDevice (uuid : String)
  | reassign (uuid target : String)
  | tick (today : Date) (second : Nat)
  | startUp (today : Date) (second : Nat)
  | complete (name : String)
  | fireByHand (id : UInt32) (force : Bool)
  /-- A rule is carried out that need not be in force. -/
  | carryOut (a : Assignment) (completed : Option String) (force : Bool)
  /-- The surroundings change. -/
  | meanwhile (around : Surroundings)

namespace Station

/-- The station in other surroundings. -/
def moveTo (s : Station) (around : Surroundings) : Station :=
  { s with
    now := around.now
    localOffset := around.localOffset
    listener := around.listener
    schedule := around.schedule
    fleet := { s.fleet with
      storage := { s.fleet.storage with tables := around.tables, down := around.down }
      lookups := around.lookups } }

/-- The station after an operation, whatever its answer. -/
def step (s : Station) : Operation → Station
  | .start => (s.onFleet (s.fleet.start s.now)).2
  | .stop => { s with fleet := s.fleet.stop }
  | .restart => (s.onFleet (s.fleet.restart s.now)).2
  | .addInstance definition => (s.onFleet (s.fleet.addInstance definition s.now)).2
  | .replaceInstance definition old => (s.onFleet (s.fleet.replaceInstance definition old s.now)).2
  | .removeInstance name => (s.removeInstance name).2
  | .addDevice device => (s.onFleet (s.fleet.addDevice device)).2
  | .replaceDevice device old => { s with fleet := s.fleet.replaceDevice device old }
  | .removeDevice uuid => (s.removeDevice uuid).2
  | .reassign uuid target => (s.onFleet (s.fleet.reassign uuid target)).2
  | .tick today second => (s.tickAt today second).2
  | .startUp today second => (s.startUpAt today second).2
  | .complete name => (s.complete name).2
  | .fireByHand id force => (s.fireByHand id force).2
  | .carryOut a completed force => (s.onFleet (s.fleet.carryOut a completed force)).2
  | .meanwhile around => s.moveTo around

/-- The states of a run, the first and the last one among them. -/
def states (s : Station) : List Operation → List Station
  | [] => [s]
  | operation :: rest => s :: (s.step operation).states rest

theorem self_mem_states (s : Station) (operations : List Operation) : s ∈ s.states operations := by
  cases operations with
  | nil => exact List.mem_singleton_self s
  | cons operation rest => exact List.mem_cons_self

/-- What every operation of a run keeps holds in all states of the run. -/
theorem states_of_step {P : Station → Prop} {allowed : Operation → Prop}
    (hstep : ∀ (s : Station) (operation : Operation), allowed operation → P s → P (s.step operation))
    {s : Station} (hs : P s) {operations : List Operation}
    (hallowed : ∀ operation ∈ operations, allowed operation) : ∀ t ∈ s.states operations, P t := by
  induction operations generalizing s with
  | nil =>
    intro t ht
    obtain rfl := List.mem_singleton.1 ht
    exact hs
  | cons operation rest ih =>
    intro t ht
    rcases List.mem_cons.1 ht with rfl | ht
    · exact hs
    · exact ih (hstep s operation (hallowed operation List.mem_cons_self) hs)
        (fun o ho => hallowed o (List.mem_cons_of_mem operation ho)) t ht

end Station

/-- An operation changes which devices work for an instance and leaves a live job untold. -/
def Operation.Lapses (s : Station) : Operation → Prop
  | start => s.fleet.Misses s.now
  | replaceInstance definition old => s.fleet.Strands definition old s.now
  | replaceDevice device old => s.fleet.Overwrites device old
  | reassign uuid target => s.fleet.Overlooks uuid target
  | _ => False

namespace Station

/-- No operation of a run lapses in the state that it meets. -/
def Careful (s : Station) : List Operation → Prop
  | [] => True
  | operation :: rest => ¬ operation.Lapses s ∧ (s.step operation).Careful rest

variable {s : Station}

/-! ## What the listener does -/

theorem inOrder_startUp (h : s.fleet.InOrder) : s.startUp.2.fleet.InOrder := by
  unfold startUp
  split
  · exact h.placeAll _
  · exact h

theorem inOrder_complete (h : s.fleet.InOrder) (name : String) :
    (s.complete name).2.fleet.InOrder := by
  unfold complete
  split
  · exact h.fireCompletion name _
  · exact h

theorem inOrder_tellReleased (h : s.fleet.InOrder) : s.tellReleased.2.fleet.InOrder := by
  have hplaced := inOrder_startUp h
  unfold tellReleased
  split
  · exact h
  · exact h
  · split
    · rename_i hok
      rwa [hok] at hplaced
    · rename_i hhalt
      rwa [hhalt] at hplaced

theorem inOrder_removeInstance (h : s.fleet.InOrder) (name : String) :
    (s.removeInstance name).2.fleet.InOrder := by
  have hremoved : (s.onFleet (s.fleet.removeInstance name)).2.fleet.InOrder :=
    h.removeInstance name
  unfold removeInstance
  split
  · rename_i hok
    rw [hok] at hremoved
    exact inOrder_tellReleased hremoved
  · rename_i hhalt
    rwa [hhalt] at hremoved

theorem inOrder_removeDevice (h : s.fleet.InOrder) (uuid : String) :
    (s.removeDevice uuid).2.fleet.InOrder := by
  have hremoved : (s.onFleet (s.fleet.removeDevice uuid)).2.fleet.InOrder :=
    ⟨h.toFit.removeDevice uuid, Fleet.agrees_removeDevice h uuid⟩
  unfold removeDevice
  split
  · rename_i hok
    rw [hok] at hremoved
    exact inOrder_tellReleased hremoved
  · rename_i herror
    rwa [herror] at hremoved

theorem inOrder_fireByHand (h : s.fleet.InOrder) (id : UInt32) (force : Bool) :
    (s.fireByHand id force).2.fleet.InOrder := by
  unfold fireByHand
  split
  · exact h
  · exact h.fireByHand _ force

/-! ## Steps and runs -/

/-- After an operation no live job is broken and every write ends, as before. -/
theorem fit_step (h : s.fleet.InOrder) (operation : Operation) : (s.step operation).fleet.Fit := by
  cases operation with
  | start => exact h.toFit.start s.now
  | stop => exact h.stop.toFit
  | restart => exact (h.restart s.now).toFit
  | addInstance definition => exact (h.addInstance definition s.now).toFit
  | replaceInstance definition old => exact h.toFit.replaceInstance definition old s.now
  | removeInstance name => exact (inOrder_removeInstance h name).toFit
  | addDevice device => exact h.toFit.addDevice device
  | replaceDevice device old => exact h.toFit.replaceDevice device old
  | removeDevice uuid => exact (inOrder_removeDevice h uuid).toFit
  | reassign uuid target => exact h.toFit.reassign uuid target
  | tick today second => exact (h.fireDue _).toFit
  | startUp today second => exact (h.placeAll _).toFit
  | complete name => exact (inOrder_complete h name).toFit
  | fireByHand rule force => exact (inOrder_fireByHand h rule force).toFit
  | carryOut a completed force => exact (h.carryOut a completed force).toFit
  | meanwhile around => exact h.toFit.of_eq rfl rfl

/-- An operation keeps the two places in agreement exactly when it does not lapse. -/
theorem agrees_step_iff (h : s.fleet.InOrder) (operation : Operation) :
    (s.step operation).fleet.Agrees ↔ ¬ operation.Lapses s := by
  cases operation with
  | start => exact Fleet.agrees_start_iff h s.now
  | stop => exact iff_of_true h.stop.agrees id
  | restart => exact iff_of_true (h.restart s.now).agrees id
  | addInstance definition => exact iff_of_true (h.addInstance definition s.now).agrees id
  | replaceInstance definition old => exact Fleet.agrees_replaceInstance_iff h definition old s.now
  | removeInstance name => exact iff_of_true (inOrder_removeInstance h name).agrees id
  | addDevice device => exact iff_of_true (Fleet.agrees_addDevice h device) id
  | replaceDevice device old => exact Fleet.agrees_replaceDevice_iff h device old
  | removeDevice uuid => exact iff_of_true (inOrder_removeDevice h uuid).agrees id
  | reassign uuid target => exact Fleet.agrees_reassign_iff h uuid target
  | tick today second => exact iff_of_true (h.fireDue _).agrees id
  | startUp today second => exact iff_of_true (h.placeAll _).agrees id
  | complete name => exact iff_of_true (inOrder_complete h name).agrees id
  | fireByHand rule force => exact iff_of_true (inOrder_fireByHand h rule force).agrees id
  | carryOut a completed force => exact iff_of_true (h.carryOut a completed force).agrees id
  | meanwhile around => exact iff_of_true (h.agrees.of_eq rfl rfl) id

/-- A run that starts in order stays in agreement exactly when it is careful. -/
theorem agrees_run_iff (h : s.fleet.InOrder) (operations : List Operation) :
    (∀ t ∈ s.states operations, t.fleet.Agrees) ↔ s.Careful operations := by
  induction operations generalizing s with
  | nil => simpa [states, Careful] using h.agrees
  | cons operation rest ih =>
    -- the induction goes on from the next state only when the two places agree in it
    have hnext : (s.step operation).fleet.Agrees →
        ((∀ t ∈ (s.step operation).states rest, t.fleet.Agrees)
          ↔ (s.step operation).Careful rest) :=
      fun hagrees => ih ⟨fit_step h operation, hagrees⟩
    unfold states Careful
    constructor
    · intro hall
      have hrest : ∀ t ∈ (s.step operation).states rest, t.fleet.Agrees :=
        fun t ht => hall t (List.mem_cons_of_mem s ht)
      have hagrees := hrest _ (self_mem_states _ rest)
      exact ⟨(agrees_step_iff h operation).1 hagrees, (hnext hagrees).1 hrest⟩
    · rintro ⟨hnot, hcareful⟩ t ht
      have hagrees := (agrees_step_iff h operation).2 hnot
      rcases List.mem_cons.1 ht with rfl | ht
      · exact h.agrees
      · exact (hnext hagrees).2 hcareful t ht

/-- Through a run of a station that has no live jobs to begin with, and whose writes end, the devices
    attached to each live job are those that work for its instance exactly when no operation
    lapses. -/
theorem agrees_states_iff (s : Station) (hjobs : s.fleet.jobs = .empty)
    (hends : s.fleet.storage.hanging = []) (operations : List Operation) :
    (∀ t ∈ s.states operations, t.fleet.Agrees) ↔ s.Careful operations :=
  agrees_run_iff (Fleet.inOrder_of_no_jobs hjobs hends) operations

/-! ### A device that is overwritten -/

/-- Two stored circles with one device each. -/
def twoCircles : Station :=
  ofTables (.ofSeed {
    instances := [⟨"A", .circlePokemon, { geofences := ["loop"] }⟩,
      ⟨"B", .circlePokemon, { geofences := ["loop"] }⟩]
    devices := [{ uuid := "dev-1", instanceName := some "A" },
      { uuid := "dev-2", instanceName := some "B" }]
    geofences := [⟨"loop", .circle,
      .list [.object [("lat", .int 0), ("lon", .int 0)],
        .object [("lat", .int 0), ("lon", .int 1)]]⟩] }) {}

/-- The device of the second circle is put in the place of that of the first. -/
def crossOver : List Operation :=
  [.start, .replaceDevice { uuid := "dev-2", instanceName := some "A" } "dev-1"]

theorem agrees_twoCircles_iff :
    twoCircles.fleet.jobs = .empty ∧ twoCircles.fleet.storage.hanging = [] ∧
      ((∀ t ∈ twoCircles.states crossOver, t.fleet.Agrees) ↔ twoCircles.Careful crossOver) :=
  ⟨rfl, rfl, agrees_states_iff twoCircles rfl rfl crossOver⟩

/-- The second circle keeps the device, which works for the first one now. -/
theorem disagrees_after_crossOver :
    twoCircles.fleet.jobs = .empty ∧ twoCircles.fleet.storage.hanging = [] ∧
      ¬ ∀ t ∈ twoCircles.states crossOver, t.fleet.Agrees := by
  refine ⟨rfl, rfl, fun hall => ?_⟩
  let last := (twoCircles.step .start).step
    (.replaceDevice { uuid := "dev-2", instanceName := some "A" } "dev-1")
  have hattached : last.fleet.attached? "B" "dev-2" = some true := by decide +kernel
  have hpost : last.fleet.post? "dev-2" = some "A" := by decide +kernel
  have hagrees : last.fleet.AgreesOn "B" :=
    hall last (List.mem_cons_of_mem _ (List.mem_cons_of_mem _ List.mem_cons_self)) "B"
  have hnow := (Fleet.agreesOn_iff.1 hagrees "dev-2" true hattached).1 rfl
  rw [hpost] at hnow
  exact absurd (Option.some.inj hnow) (by decide)

end Station

end ScanFleet
