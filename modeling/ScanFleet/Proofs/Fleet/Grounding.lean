import ScanFleet.Proofs.Fleet.Instances
import ScanFleet.Proofs.Fleet.Stable

set_option autoImplicit false

/-! # Devices work for defined instances

A definition goes when its instance is removed or replaced under another name, while rules and stored
rows go on naming it. The devices of a grounded fleet work for defined instances all the same: a
removal releases the devices of the instance, a replacement takes them along, and whoever moves a
device, the fleet first asks whether the target is defined. What the stored row of a recruited device
says does not matter, since the device either moves on or is at the target already. -/

namespace ScanFleet

namespace Fleet

/-- Every device that works for an instance works for a defined one. -/
def Grounded (f : Fleet) : Prop :=
  ∀ uuid name, f.post? uuid = some name → f.definitions.has name = true

variable {f : Fleet}

theorem grounded_iff :
    f.Grounded ↔ ∀ device ∈ f.devices.rows, device.instanceName.all f.definitions.has = true := by
  simp only [Option.all_eq_true_iff_get, Option.isSome_iff_exists]
  constructor
  · intro h device hmem hsome
    obtain ⟨name, hname⟩ := hsome
    have hget : f.devices.get? device.uuid = some device := Table.get?_of_mem hmem
    have hpost : f.post? device.uuid = some name := by rw [post?, hget, Option.bind_some, hname]
    simpa [hname] using h device.uuid name hpost
  · intro h uuid name hpost
    obtain ⟨device, hget, hname⟩ := Option.bind_eq_some_iff.1 hpost
    simpa [hname] using h device (Table.mem_of_get? hget) ⟨name, hname⟩

instance : Decidable f.Grounded := decidable_of_iff' _ grounded_iff

theorem Grounded.of_eq {g : Fleet} (h : f.Grounded) (hdefinitions : g.definitions = f.definitions)
    (hdevices : g.devices = f.devices) : g.Grounded := by
  intro uuid name hpost
  rw [post?, hdevices] at hpost
  rw [hdefinitions]
  exact h uuid name hpost

/-! ## Devices -/

theorem Grounded.insert (h : f.Grounded) {device : Device}
    (hdefined : ∀ name, device.instanceName = some name → f.definitions.has name = true) :
    ({ f with devices := f.devices.insert device } : Fleet).Grounded := by
  intro uuid name hpost
  rw [post?_insert] at hpost
  split at hpost
  · exact hdefined name hpost
  · exact h uuid name hpost

theorem Grounded.removeDevice (h : f.Grounded) (uuid : String) : (f.removeDevice uuid).2.Grounded := by
  unfold Fleet.removeDevice
  split
  · exact h
  · rw [detach_eq]
    have herased : ({ f with devices := f.devices.erase uuid } : Fleet).Grounded := by
      intro other name hpost
      rw [post?_erase] at hpost
      split at hpost
      · cases hpost
      · exact h other name hpost
    exact herased.of_eq rfl rfl

/-- Whether its row is written or not, a device that moves is filed with its target. -/
theorem move_files (f : Fleet) (device : Device) (target : String) :
    (f.move device target).2.devices = f.devices.insert (device.assign (some target))
      ∧ (f.move device target).2.definitions = f.definitions := by
  have hout : (f.setOut device target).devices = f.devices.insert (device.assign (some target))
      ∧ (f.setOut device target).definitions = f.definitions := by
    rw [setOut, detach_eq]
    exact ⟨rfl, rfl⟩
  rw [move_eq]
  cases f.storage.write (device.assign (some target)) with
  | hangs => exact hout
  | failed =>
    dsimp only
    rw [attach_eq]
    exact hout
  | done storage =>
    dsimp only
    rw [attach_eq]
    exact hout

theorem Grounded.reassign (h : f.Grounded) (uuid target : String) :
    (f.reassign uuid target).2.Grounded := by
  cases hdefined : f.definitions.has target with
  | false =>
    unfold Fleet.reassign
    rw [hdefined]
    exact h
  | true =>
    obtain ⟨error, heq, -⟩ | ⟨device, -, -, -, hworks, heq⟩ | ⟨device, -, -, -, heq⟩ :=
      f.reassign_cases uuid target
    · rw [heq]
      exact h
    · rw [heq]
      refine h.insert fun name hname => ?_
      have hthere : device.instanceName = some target := by simpa [Device.worksFor] using hworks
      obtain rfl := Option.some.inj (hthere.symm.trans hname)
      exact hdefined
    · obtain ⟨hdevices, hdefinitions⟩ := f.move_files device target
      rw [heq]
      have hmoved : ({ f with devices := f.devices.insert (device.assign (some target)) } :
          Fleet).Grounded := by
        refine h.insert fun name hname => ?_
        obtain rfl := Option.some.inj hname
        exact hdefined
      exact hmoved.of_eq hdefinitions hdevices

theorem stable_grounded : Stable Grounded where
  countTrigger _ h := h.of_eq rfl rfl
  reassign uuid target h := h.reassign uuid target

/-! ## Instances -/

theorem Grounded.install (h : f.Grounded) (definition : Instance) (now : Instant) :
    (f.install definition now).2.Grounded := by
  obtain ⟨job, lookups, -, heq⟩ | ⟨halt, lookups, metrics, -, heq⟩ := f.install_outcome definition now
  · rw [heq]
    exact h.of_eq rfl rfl
  · rw [heq]
    exact h.of_eq rfl rfl

/-- One definition more does no harm. -/
theorem Grounded.define (h : f.Grounded) (definition : Instance) :
    ({ f with definitions := f.definitions.insert definition } : Fleet).Grounded := by
  intro uuid name hpost
  show (f.definitions.insert definition).has name = true
  rw [Table.has_insert, h uuid name hpost, Bool.or_true]

theorem Grounded.addInstance (h : f.Grounded) (definition : Instance) (now : Instant) :
    (f.addInstance definition now).2.Grounded :=
  (h.define definition).install definition now

/-- The definition that goes is that of the devices which go elsewhere. -/
theorem has_withdraw_of_ne {name k : String} {other : Option String} (h : f.definitions.has k = true)
    (hne : k ≠ name) : (f.withdraw name other).definitions.has k = true := by
  show (f.definitions.erase name).has k = true
  rw [Table.has_erase, h, Bool.and_true, decide_eq_true_eq]
  exact hne.symm

theorem Grounded.replaced (h : f.Grounded) (definition : Instance) (old : String) :
    (f.replaced definition old).Grounded := by
  intro uuid name hafter
  have hpost : (f.withdraw old (some definition.name)).post? uuid = some name := hafter
  show ((f.withdraw old (some definition.name)).definitions.insert definition).has name = true
  rw [Table.has_insert, Bool.or_eq_true, decide_eq_true_eq]
  rw [post?_withdraw] at hpost
  split at hpost
  · exact .inl (Option.some.inj hpost)
  · rename_i hother
    refine .inr (has_withdraw_of_ne (h uuid name hpost) ?_)
    rintro rfl
    exact hother hpost

theorem Grounded.replaceInstance (h : f.Grounded) (definition : Instance) (old : String)
    (now : Instant) : (f.replaceInstance definition old now).2.Grounded := by
  have hreplaced := h.replaced definition old
  obtain ⟨storage, heq⟩ | ⟨storage, lookups, heq⟩ := f.replaceInstance_cases definition old now
  · rw [heq]
    exact hreplaced.of_eq rfl rfl
  · rw [heq]
    refine Grounded.install ?_ definition now
    exact hreplaced.of_eq rfl rfl

theorem Grounded.removeInstance (h : f.Grounded) (name : String) :
    (f.removeInstance name).2.Grounded := by
  obtain ⟨-, heq⟩ | ⟨answer, storage, metrics, heq⟩ := f.removeInstance_cases name
  · rw [heq]
    exact h
  · have hreleased : (f.withdraw name none).Grounded := by
      intro uuid other hpost
      rw [post?_withdraw] at hpost
      split at hpost
      · cases hpost
      · rename_i hother
        refine has_withdraw_of_ne (h uuid other hpost) ?_
        rintro rfl
        exact hother hpost
    rw [heq]
    exact hreleased.of_eq rfl rfl

/-- A fleet that is stopped has no devices. -/
theorem grounded_stop (f : Fleet) : f.stop.Grounded := by
  intro uuid name hpost
  cases hpost

end Fleet

end ScanFleet
