import ScanFleet.Proofs.Fleet.Grounding
import ScanFleet.Proofs.Station.Completion
import ScanFleet.Proofs.Station.Operations

set_option autoImplicit false

/-! # Defined instances through runs of a station

Only where devices are taken in with the instance that a row or a caller names can a device come to
work for an instance that is not defined. Through everything else that is done one after another the
devices of a station work for defined instances, whatever the rules and the stored rows name, and
whether an operation succeeds, fails or is held up by a write. -/

namespace ScanFleet

/-- Whether the operation files devices under the instances that their rows or the caller name. -/
def Operation.takesIn : Operation → Bool
  | start => true
  | restart => true
  | addDevice _ => true
  | replaceDevice _ _ => true
  | _ => false

namespace Station

theorem grounded_step {s : Station} {operation : Operation} (hinside : operation.takesIn = false)
    (h : s.fleet.Grounded) : (s.step operation).fleet.Grounded := by
  cases operation with
  | start => cases hinside
  | stop => exact Fleet.grounded_stop s.fleet
  | restart => cases hinside
  | addInstance definition => exact h.addInstance definition s.now
  | replaceInstance definition old => exact h.replaceInstance definition old s.now
  | removeInstance name => exact stable_removeInstance Fleet.stable_grounded (h.removeInstance name)
  | addDevice device => cases hinside
  | replaceDevice device old => cases hinside
  | removeDevice uuid => exact stable_removeDevice Fleet.stable_grounded (h.removeDevice uuid)
  | reassign uuid target => exact h.reassign uuid target
  | tick today second => exact Fleet.stable_grounded.fireDue h _
  | startUp today second => exact Fleet.stable_grounded.placeAll h _
  | complete name => exact stable_complete Fleet.stable_grounded h name
  | fireByHand id force => exact stable_fireByHand Fleet.stable_grounded h id force
  | carryOut a completed force => exact Fleet.stable_grounded.carryOut h a completed force
  | meanwhile around => exact h.of_eq rfl rfl

/-- When the devices of a station work for defined instances, they do so after every operation that
    takes no device in. -/
theorem grounded_states (s : Station) (h : s.fleet.Grounded) (operations : List Operation)
    (hinside : ∀ operation ∈ operations, operation.takesIn = false) :
    ∀ t ∈ s.states operations, t.fleet.Grounded :=
  states_of_step (P := fun t => t.fleet.Grounded) (fun _ _ => grounded_step) h hinside

/-- Two circles at work. A device that the fleet does not know is stored as working for `Ghost`, which
    is not defined. A rule moves it onto a circle, and another one is to move everyone to `Nowhere`. -/
def haunted : Station :=
  let s := twoCircles.step .start
  let ghost : Device := { uuid := "dev-9", instanceName := some "Ghost" }
  let tables := s.fleet.storage.tables
  { s with
    fleet := { s.fleet with storage.tables := { tables with devices := tables.devices.insert ghost } }
    schedule := {
      rules := [{ id := 1, target := "B", device := some "dev-9", time := 100 },
        { id := 2, target := "Nowhere" }]
      watermark := some ⟨epoch, 50⟩ } }

/-- The clock moves the stored device onto the second circle. The first circle goes, and its device is
    free; the second gets another name and cannot be built. Nobody comes to `Nowhere`. -/
def exorcism : List Operation :=
  [.tick epoch 150, .removeInstance "A",
    .replaceInstance ⟨"C", .circlePokemon, {}⟩ "B", .complete "C", .fireByHand 2 true,
    .reassign "dev-1" "Ghost"]

example : (["dev-1", "dev-2", "dev-9"].map (exorcism.foldl step haunted).fleet.post?)
    = [none, some "C", some "C"] := by
  decide +kernel

end Station

end ScanFleet
