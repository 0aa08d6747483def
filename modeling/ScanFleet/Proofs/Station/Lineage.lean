import ScanFleet.Proofs.Fleet.Lineage
import ScanFleet.Proofs.Station.Operations

set_option autoImplicit false

/-! # What became of every job through runs of a station

Six operations build, replace or end jobs; all others only move devices. After every operation of a run
each job that was ever built is live under its name and at work, or it is retired and stopped. Only a
replacement that waits for a write for ever leaves a job that is neither. -/

namespace ScanFleet

/-- Whether the operation may build, replace or end jobs. -/
def Operation.manages : Operation → Bool
  | start => true
  | stop => true
  | restart => true
  | addInstance _ => true
  | replaceInstance _ _ => true
  | removeInstance _ => true
  | _ => false

/-- Whether the operation comes to an end, so that a replacement gets to stop the former job. -/
def Operation.ends (s : Station) : Operation → Bool
  | replaceInstance definition old =>
    match (s.fleet.replaceInstance definition old s.now).1 with
    | .error .stalled => false
    | _ => true
  | _ => true

/-- The definitions, with their queue limits, from which the operation builds jobs. -/
def Operation.built (s : Station) : Operation → List Instance
  | start => s.fleet.startRoll s.now
  | restart =>
    ({ s.fleet.stop with lookups := s.fleet.stop.lookups.refresh } : Fleet).startRoll s.now
  | addInstance definition =>
    Fleet.builtOn (s.fleet.addInstance definition s.now).1
      (definition.withQueueLimit s.fleet.queueLimit)
  | replaceInstance definition old =>
    Fleet.builtOn (s.fleet.replaceInstance definition old s.now).1
      (definition.withQueueLimit s.fleet.queueLimit)
  | _ => []

namespace Station

/-- The station after a run. -/
def run (s : Station) (operations : List Operation) : Station := operations.foldl step s

/-- Whether every operation of a run comes to an end. -/
def ends (s : Station) : List Operation → Bool
  | [] => true
  | operation :: rest => operation.ends s && (s.step operation).ends rest

/-- The definitions from which a run builds jobs, in order. -/
def built (s : Station) : List Operation → List Instance
  | [] => []
  | operation :: rest => operation.built s ++ (s.step operation).built rest

variable {s : Station} {roll : List Instance} {ended : Prop}

/-- The devices that a removal releases are moved by triggers. -/
theorem sameWork_removeInstance (s : Station) (name : String) :
    (s.fleet.removeInstance name).2.SameWork (s.removeInstance name).2.fleet :=
  stable_removeInstance (Fleet.stable_sameWork _) (.refl _)

theorem sameWork_step (s : Station) {operation : Operation} (h : operation.manages = false) :
    s.fleet.SameWork (s.step operation).fleet := by
  have hstable := Fleet.stable_sameWork s.fleet
  have hrefl := Fleet.SameWork.refl s.fleet
  cases operation with
  | start => cases h
  | stop => cases h
  | restart => cases h
  | addInstance definition => cases h
  | replaceInstance definition old => cases h
  | removeInstance name => cases h
  | addDevice device => exact s.fleet.sameWork_addDevice device
  | replaceDevice device old => exact s.fleet.sameWork_replaceDevice device old
  | removeDevice uuid => exact stable_removeDevice hstable (s.fleet.sameWork_removeDevice uuid)
  | reassign uuid target => exact s.fleet.sameWork_reassign uuid target
  | tick today second => exact hstable.fireDue hrefl _
  | startUp today second => exact hstable.placeAll hrefl _
  | complete name => exact stable_complete hstable hrefl name
  | fireByHand id force => exact stable_fireByHand hstable hrefl id force
  | carryOut a completed force => exact hstable.carryOut hrefl a completed force
  | meanwhile around => exact .of_eq rfl rfl rfl rfl

theorem built_of_not_manages {operation : Operation} (h : operation.manages = false) :
    operation.built s = [] := by
  cases operation <;> first | rfl | cases h

theorem accounts_step (h : s.fleet.Accounts roll ended) (operation : Operation) :
    (s.step operation).fleet.Accounts (roll ++ operation.built s)
      (ended ∧ operation.ends s = true) := by
  cases hmanages : operation.manages with
  | false =>
    rw [built_of_not_manages hmanages, List.append_nil]
    exact (h.of_sameWork (s.sameWork_step hmanages)).of_imp And.left
  | true =>
    cases operation with
    | start => exact (h.start s.now).of_imp And.left
    | stop =>
      show s.fleet.stop.Accounts (roll ++ []) _
      rw [List.append_nil]
      exact h.stop.of_imp And.left
    | restart => exact (h.restart s.now).of_imp And.left
    | addInstance definition => exact (h.addInstance definition s.now).of_imp And.left
    | replaceInstance definition old =>
      refine (h.replaceInstance definition old s.now).of_imp fun hended => ⟨hended.1, fun hstalled => ?_⟩
      have hends := hended.2
      rw [Operation.ends, hstalled] at hends
      cases hends
    | removeInstance name =>
      show (s.removeInstance name).2.fleet.Accounts (roll ++ []) _
      rw [List.append_nil]
      have hremoved := (h.removeInstance name).of_sameWork (s.sameWork_removeInstance name)
      exact hremoved.of_imp And.left
    | _ => cases hmanages

theorem accounts_run (h : s.fleet.Accounts roll ended) (operations : List Operation) :
    (s.run operations).fleet.Accounts (roll ++ s.built operations)
      (ended ∧ s.ends operations = true) := by
  induction operations generalizing s roll ended with
  | nil =>
    rw [built, List.append_nil]
    exact h.of_imp And.left
  | cons operation rest ih =>
    rw [built, ← List.append_assoc]
    refine (ih (accounts_step h operation)).of_imp fun ⟨hended, hends⟩ => ?_
    rw [ends, Bool.and_eq_true] at hends
    exact ⟨⟨hended, hends.1⟩, hends.2⟩

/-- After any run of a station that has no jobs to begin with, the jobs that were ever built under a
    name are those retired under it, and then the live one, which is at work for a defined instance.
    The retired ones are all stopped, unless a replacement waits for a write for ever. -/
theorem lineage_run (s : Station) (hjobs : s.fleet.jobs = .empty) (hretired : s.fleet.retired = [])
    (operations : List Operation) :
    let after := (s.run operations).fleet
    (∀ name, (after.lineage name).map (·.definition)
        = (s.built operations).filter (·.name == name))
      ∧ (s.ends operations = true → ∀ job ∈ after.retired, job.stopped = true)
      ∧ ∀ name job, after.jobs.get? name = some job →
        job.name = name ∧ job.stopped = false ∧ after.definitions.has name = true := by
  intro after
  have h : after.Accounts (s.built operations) (True ∧ s.ends operations = true) :=
    accounts_run (Fleet.accounts_of_no_jobs hjobs hretired) operations
  refine ⟨h.lineage, fun hends => h.retired ⟨trivial, hends⟩, fun name job hjob => ?_⟩
  obtain ⟨hwork, hdefined⟩ := h.live name job hjob
  exact ⟨Table.key_of_get? hjob, hwork.running, hdefined⟩

/-- The first circle is built three times; it takes over the name of the second, and that one cannot be
    built again. Then everything is removed or stopped, and loaded once more. -/
def upsAndDowns : List Operation :=
  [.start, .start, .addInstance ⟨"A", .circleRaid, { geofences := ["loop"] }⟩,
    .replaceInstance ⟨"B", .circleRaid, { geofences := ["loop"] }⟩ "A",
    .addInstance ⟨"B", .circlePokemon, {}⟩, .replaceInstance ⟨"B", .circlePokemon, {}⟩ "B",
    .removeInstance "B", .stop, .restart]

theorem lineage_upsAndDowns :
    twoCircles.fleet.jobs = .empty ∧ twoCircles.fleet.retired = []
      ∧ twoCircles.ends upsAndDowns = true ∧
        let after := (twoCircles.run upsAndDowns).fleet
        (∀ name, (after.lineage name).map (·.definition)
            = (twoCircles.built upsAndDowns).filter (·.name == name))
          ∧ (∀ job ∈ after.retired, job.stopped = true)
          ∧ ∀ name job, after.jobs.get? name = some job →
            job.name = name ∧ job.stopped = false ∧ after.definitions.has name = true := by
  have hends : twoCircles.ends upsAndDowns = true := by decide +kernel
  obtain ⟨hlineage, hretired, hlive⟩ := lineage_run twoCircles rfl rfl upsAndDowns
  exact ⟨rfl, rfl, hends, hlineage, hretired hends, hlive⟩

example : (twoCircles.built upsAndDowns).map (·.name) = ["A", "B", "A", "B", "A", "B", "A", "B"] := by
  decide +kernel

end Station

end ScanFleet
