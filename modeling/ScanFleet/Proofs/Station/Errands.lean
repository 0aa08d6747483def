import ScanFleet.Proofs.Fleet.Mirror
import ScanFleet.Proofs.Station.Operations

set_option autoImplicit false

/-! # Storage as a mirror through runs of a station

A station that was started on an empty fleet has its devices from storage. As long as no device is
handed in from outside, writes are carried out, and each errand is done before the next begins, the
stored rows name the instances that the devices work for, after every errand. -/

namespace ScanFleet

/-- The operation hands no device in from outside, and leaves the stored tables to the fleet. -/
def Operation.Internal : Operation → Prop
  | addDevice _ => False
  | replaceDevice _ _ => False
  | meanwhile _ => False
  | _ => True

/-- What a started station is asked to do, and what happens around it. -/
inductive Errand where
  | operate (operation : Operation) (internal : operation.Internal)
  /-- A device checks in. -/
  | locate (uuid : String) (place : Coordinate)
  | meanwhile (now : Instant) (localOffset : Int) (listener : Listener) (schedule : Schedule)

namespace Station

/-- The station after an errand, whatever its answer. -/
def perform (s : Station) : Errand → Station
  | .operate operation _ => s.step operation
  | .locate uuid place => (s.onFleet (s.fleet.locate uuid place s.now)).2
  | .meanwhile now localOffset listener schedule => { s with now, localOffset, listener, schedule }

/-- The station before the first and after every errand. -/
def stages (s : Station) : List Errand → List Station
  | [] => [s]
  | errand :: rest => s :: (s.perform errand).stages rest

variable {s : Station}

theorem inSync_step (h : s.fleet.InSync) {operation : Operation} (hinternal : operation.Internal) :
    (s.step operation).fleet.InSync := by
  cases operation with
  | start => exact h.start s.now
  | stop => exact h.stop
  | restart => exact h.restart s.now
  | addInstance definition => exact h.addInstance definition s.now
  | replaceInstance definition old => exact h.replaceInstance definition old s.now
  | removeInstance name => exact stable_removeInstance Fleet.stable_inSync (h.removeInstance name)
  | addDevice device => exact hinternal.elim
  | replaceDevice device old => exact hinternal.elim
  | removeDevice uuid => exact stable_removeDevice Fleet.stable_inSync (h.removeDevice uuid)
  | reassign uuid target => exact h.reassign uuid target
  | tick today second => exact Fleet.stable_inSync.fireDue h _
  | startUp today second => exact Fleet.stable_inSync.placeAll h _
  | complete name => exact stable_complete Fleet.stable_inSync h name
  | fireByHand id force => exact stable_fireByHand Fleet.stable_inSync h id force
  | carryOut a completed force => exact Fleet.stable_inSync.carryOut h a completed force
  | meanwhile around => exact hinternal.elim

theorem inSync_perform (h : s.fleet.InSync) (errand : Errand) : (s.perform errand).fleet.InSync := by
  cases errand with
  | operate operation internal => exact inSync_step h internal
  | locate uuid place => exact h.locate uuid place s.now
  | meanwhile now localOffset listener schedule => exact h

theorem inSync_stages (h : s.fleet.InSync) (errands : List Errand) :
    ∀ t ∈ s.stages errands, t.fleet.InSync := by
  induction errands generalizing s with
  | nil =>
    intro t ht
    obtain rfl := List.mem_singleton.1 ht
    exact h
  | cons errand rest ih =>
    intro t ht
    rcases List.mem_cons.1 ht with rfl | hrest
    · exact h
    · exact ih (inSync_perform h errand) t hrest

/-- When a station without devices is started, and writes are carried out, every device is stored with
    the instance that it works for, from the start on and after every errand. -/
theorem mirrored_stages (s : Station) (hnew : s.fleet.devices = .empty)
    (hwrites : s.fleet.storage.Writable) (errands : List Errand) :
    ∀ t ∈ (s.step .start).stages errands, t.fleet.Mirrored := by
  have hstarted : (s.step .start).fleet.InSync :=
    inSync_step (Fleet.inSync_of_no_devices hnew hwrites) trivial
  exact fun t ht => (inSync_stages hstarted errands t ht).mirrored

end Station

end ScanFleet
