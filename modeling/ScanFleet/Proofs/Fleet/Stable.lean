import ScanFleet.Proofs.Fleet.Triggers
import ScanFleet.Station.Basic

set_option autoImplicit false

/-! # What no trigger breaks

However many rules and devices a trigger is about, it does only two things to a fleet: it is counted,
and devices are ordered to move, one after another. So what holds of a fleet whatever is counted and
whoever is ordered to move (`Fleet.Stable`) holds after every trigger. The inductions over moves and
rules are made here, once for all such properties. -/

namespace ScanFleet

/-- A property of fleets that is kept when a trigger is counted and when a device is ordered to
    move. -/
structure Fleet.Stable (P : Fleet → Prop) : Prop where
  countTrigger : ∀ {f : Fleet} (trigger : Trigger), P f → P (f.countTrigger trigger)
  reassign : ∀ {f : Fleet} (uuid target : String), P f → P (f.reassign uuid target).2

namespace Fleet

namespace Stable

variable {P : Fleet → Prop} {f : Fleet}

theorem afterMove (h : Stable P) (hf : P f) (trigger : Option Trigger) (m : Move) :
    P (f.afterMove trigger m) := by
  cases trigger with
  | none => exact h.reassign m.uuid m.target hf
  | some trigger => exact h.reassign m.uuid m.target (h.countTrigger trigger hf)

theorem moveAll (h : Stable P) (hf : P f) (trigger : Option Trigger) (moves : List Move) :
    P (f.moveAll trigger moves).2 := by
  induction moves generalizing f with
  | nil => exact hf
  | cons m rest ih =>
    have hmoved := h.afterMove hf trigger m
    rcases f.moveAll_cons trigger m rest with heq | heq
    · rw [heq]
      exact hmoved
    · rw [heq]
      exact ih hmoved

theorem carryOut (h : Stable P) (hf : P f) (a : Assignment) (completed : Option String)
    (force : Bool) : P (f.carryOut a completed force).2 := by
  unfold Fleet.carryOut
  split
  · exact hf
  · exact h.moveAll hf none _

theorem fireByHand (h : Stable P) (hf : P f) (a : Assignment) (force : Bool) :
    P (f.fireByHand a force).2 :=
  h.carryOut (h.countTrigger .manual hf) a none force

theorem carryOutAll (h : Stable P) (hf : P f) (rules : List Assignment) :
    P (f.carryOutAll rules).2 := by
  induction rules generalizing f with
  | nil => exact hf
  | cons a rest ih =>
    rw [carryOutAll_cons]
    exact ih (h.carryOut hf a none false)

theorem fireDue (h : Stable P) (hf : P f) (due : List Assignment) : P (f.fireDue due).2 := by
  unfold Fleet.fireDue
  refine h.carryOutAll ?_ due
  -- the triggers are all counted before the first rule is carried out
  generalize due = rules
  induction rules generalizing f with
  | nil => exact hf
  | cons a rest ih => exact ih (h.countTrigger .clock hf)

theorem fireCompletion (h : Stable P) (hf : P f) (completed : String) (rules : List Assignment) :
    P (f.fireCompletion completed rules).2 := by
  induction rules generalizing f with
  | nil => exact hf
  | cons a rest ih =>
    have hfired := h.carryOut (h.countTrigger .completion hf) a (some completed) false
    rcases f.fireCompletion_cons completed a rest with heq | heq
    · rw [heq]
      exact hfired
    · rw [heq]
      exact ih hfired

theorem placeAll (h : Stable P) (hf : P f) (rules : List Assignment) :
    P (f.placeAll rules).2 :=
  h.moveAll hf (some .startup) _

end Stable

end Fleet

/-! ## The triggers of a station -/

namespace Station

variable {P : Fleet → Prop} {s : Station}

theorem stable_startUp (h : Fleet.Stable P) (hs : P s.fleet) : P s.startUp.2.fleet := by
  unfold startUp
  split
  · exact h.placeAll hs _
  · exact hs

theorem stable_complete (h : Fleet.Stable P) (hs : P s.fleet) (name : String) :
    P (s.complete name).2.fleet := by
  unfold complete
  split
  · exact h.fireCompletion hs name _
  · exact hs

theorem stable_fireByHand (h : Fleet.Stable P) (hs : P s.fleet) (id : UInt32) (force : Bool) :
    P (s.fireByHand id force).2.fleet := by
  unfold fireByHand
  split
  · exact hs
  · exact h.fireByHand hs _ force

/-- Who is told of released devices leaves the fleet alone, or places devices. -/
theorem tellReleased_cases (s : Station) :
    s.tellReleased.2.fleet = s.fleet ∨ s.tellReleased.2.fleet = s.startUp.2.fleet := by
  unfold tellReleased
  split
  · exact .inl rfl
  · exact .inl rfl
  · right
    split
    · rename_i hok
      rw [hok]
    · rename_i hhalt
      rw [hhalt]

theorem stable_tellReleased (h : Fleet.Stable P) (hs : P s.fleet) :
    P s.tellReleased.2.fleet := by
  rcases s.tellReleased_cases with heq | heq
  · rw [heq]
    exact hs
  · rw [heq]
    exact stable_startUp h hs

/-- What holds of the fleet without the instance holds when the released devices are placed. -/
theorem stable_removeInstance (h : Fleet.Stable P) {name : String}
    (hremoved : P (s.fleet.removeInstance name).2) : P (s.removeInstance name).2.fleet := by
  have hremoved : P (s.onFleet (s.fleet.removeInstance name)).2.fleet := hremoved
  unfold removeInstance
  split
  · rename_i hok
    rw [hok] at hremoved
    exact stable_tellReleased h hremoved
  · rename_i hhalt
    rwa [hhalt] at hremoved

theorem stable_removeDevice (h : Fleet.Stable P) {uuid : String}
    (hremoved : P (s.fleet.removeDevice uuid).2) : P (s.removeDevice uuid).2.fleet := by
  have hremoved : P (s.onFleet (s.fleet.removeDevice uuid)).2.fleet := hremoved
  unfold removeDevice
  split
  · rename_i hok
    rw [hok] at hremoved
    exact stable_tellReleased h hremoved
  · rename_i herror
    rwa [herror] at hremoved

end Station

end ScanFleet
