import ScanFleet.Fleet.Firing
import ScanFleet.Proofs.Fleet.Moves

set_option autoImplicit false

/-! # Attachment under the triggers of rules

Rules only move devices that are not on their target. Whether a device is there is asked before the
first device moves, and no move makes another device overlooked, so every trigger leaves the table of
devices and the crews of the live jobs in agreement. -/

namespace ScanFleet

namespace Fleet

variable {f : Fleet}

/-- A fleet with the same storage, live jobs and devices is in order when this one is. -/
theorem InOrder.of_eq {g : Fleet} (h : f.InOrder) (hstorage : g.storage = f.storage)
    (hjobs : g.jobs = f.jobs) (hdevices : g.devices = f.devices) : g.InOrder :=
  ⟨h.toFit.of_eq hjobs (by rw [hstorage]), h.agrees.of_eq hjobs hdevices⟩

theorem InOrder.countTrigger (h : f.InOrder) (trigger : Trigger) :
    (f.countTrigger trigger).InOrder :=
  h.of_eq rfl rfl rfl

/-! ## Moves -/

/-- The fleet after the first of several moves, the trigger counted. -/
def afterMove (f : Fleet) (trigger : Option Trigger) (m : Move) : Fleet :=
  ((trigger.elim f f.countTrigger).reassign m.uuid m.target).2

/-- After the first move the others are made, or nothing more is. -/
theorem moveAll_cons (f : Fleet) (trigger : Option Trigger) (m : Move) (rest : List Move) :
    (f.moveAll trigger (m :: rest)).2 = f.afterMove trigger m
      ∨ (f.moveAll trigger (m :: rest)).2 = ((f.afterMove trigger m).moveAll trigger rest).2 := by
  rw [moveAll, afterMove]
  split
  · rename_i g hok
    rw [hok]
    right
    split
    · rename_i h
      rw [h]
    · rename_i h
      rw [h]
  · rename_i hfailed
    rw [hfailed]
    exact .inr rfl
  · rename_i hhalt
    rw [hhalt]
    exact .inl rfl

/-- A move keeps a fleet in order and makes no device overlooked. -/
theorem InOrder.afterMove (h : f.InOrder) (trigger : Option Trigger) {m : Move}
    (hnot : ¬ f.AlreadyThere m.uuid m.target) :
    (f.afterMove trigger m).InOrder ∧
      ∀ uuid target, (f.afterMove trigger m).AlreadyThere uuid target
        → f.AlreadyThere uuid target := by
  cases trigger with
  | none => exact ⟨h.reassign hnot, fun _ _ => AlreadyThere.of_reassign h.toFit⟩
  | some trigger =>
    have hcounted := h.countTrigger trigger
    have hnot : ¬ (f.countTrigger trigger).AlreadyThere m.uuid m.target := hnot
    exact ⟨hcounted.reassign hnot, fun _ _ => AlreadyThere.of_reassign hcounted.toFit⟩

theorem InOrder.moveAll (h : f.InOrder) (trigger : Option Trigger) {moves : List Move}
    (hmoves : ∀ m ∈ moves, ¬ f.AlreadyThere m.uuid m.target) :
    (f.moveAll trigger moves).2.InOrder := by
  induction moves generalizing f with
  | nil => exact h
  | cons m rest ih =>
    obtain ⟨hmoved, hthere⟩ := h.afterMove trigger (hmoves m List.mem_cons_self)
    rcases f.moveAll_cons trigger m rest with heq | heq
    · rw [heq]
      exact hmoved
    · rw [heq]
      -- what was found before the first move holds for the later moves too
      exact ih hmoved fun n hn habsurd => hmoves n (List.mem_cons_of_mem _ hn) (hthere _ _ habsurd)

/-! ## Rules -/

/-- Devices are found as the fleet knows them or as they are stored. -/
theorem of_mem_findDevices {uuids : List String} {devices : List Device}
    (h : f.findDevices uuids = .ok devices) {d : Device} (hd : d ∈ devices) :
    f.devices.get? d.uuid = some d ∨ f.storage.tables.devices.get? d.uuid = some d := by
  have hlisted : ∀ {table : Table Device} {names : List String},
      d ∈ names.filterMap table.get? → table.get? d.uuid = some d := by
    intro table names hmem
    obtain ⟨uuid, -, hget⟩ := List.mem_filterMap.1 hmem
    obtain rfl : d.uuid = uuid := Table.key_of_get? hget
    exact hget
  unfold findDevices at h
  dsimp only at h
  split at h
  · obtain rfl := Except.ok.inj h
    exact .inl (hlisted hd)
  · cases hread : f.storage.devicesAmong (f.strangers uuids) with
    | error error =>
      rw [hread] at h
      cases h
    | ok stored =>
      rw [hread] at h
      obtain rfl := Except.ok.inj h
      obtain rfl := Storage.eq_of_read hread
      rcases List.mem_append.1 hd with hmem | hmem
      · exact .inl (hlisted hmem)
      · exact .inr (hlisted hmem)

theorem of_mem_subjects {a : Assignment} {force : Bool} {devices : List Device}
    (h : f.subjects a force = .ok devices) {d : Device} (hd : d ∈ devices) :
    f.devices.get? d.uuid = some d ∨ f.storage.tables.devices.get? d.uuid = some d := by
  unfold subjects at h
  split at h
  · cases h
  · exact of_mem_findDevices h hd

/-- A device that was found off an instance is not there already. -/
theorem not_alreadyThere_of_found {d : Device} {target : String}
    (h : f.devices.get? d.uuid = some d ∨ f.storage.tables.devices.get? d.uuid = some d)
    (hoff : d.worksFor target = false) : ¬ f.AlreadyThere d.uuid target := by
  rintro ⟨hunknown, other, hstored, hworks⟩
  rcases h with hknown | hfound
  · rw [Table.has, hknown] at hunknown
    cases hunknown
  · rw [device?_ok hstored] at hfound
    obtain rfl := Option.some.inj hfound
    rw [hoff] at hworks
    cases hworks

theorem InOrder.carryOut (h : f.InOrder) (a : Assignment) (completed : Option String)
    (force : Bool) : (f.carryOut a completed force).2.InOrder := by
  unfold Fleet.carryOut
  split
  · exact h
  · rename_i devices hsubjects
    refine h.moveAll none fun m hm => ?_
    obtain ⟨d, hd, rfl⟩ := List.mem_map.1 hm
    obtain ⟨hmem, hmoves⟩ := List.mem_filter.1 hd
    refine not_alreadyThere_of_found (of_mem_subjects hsubjects hmem) ?_
    unfold Assignment.moves at hmoves
    simpa using (Bool.and_eq_true_iff.1 hmoves).1

theorem InOrder.fireByHand (h : f.InOrder) (a : Assignment) (force : Bool) :
    (f.fireByHand a force).2.InOrder :=
  (h.countTrigger .manual).carryOut a none force

/-- Each rule of a tick is carried out, whatever becomes of the ones before. -/
theorem carryOutAll_cons (f : Fleet) (a : Assignment) (rest : List Assignment) :
    (f.carryOutAll (a :: rest)).2 = ((f.carryOut a none false).2.carryOutAll rest).2 := by
  rw [carryOutAll]
  split
  · rename_i hok
    rw [hok]
  · rename_i hfailed
    rw [hfailed]
  · rename_i hhalt
    rw [hhalt]

theorem InOrder.carryOutAll (h : f.InOrder) (rules : List Assignment) :
    (f.carryOutAll rules).2.InOrder := by
  induction rules generalizing f with
  | nil => exact h
  | cons a rest ih =>
    rw [carryOutAll_cons]
    exact ih (h.carryOut a none false)

/-- Triggers that are counted change the numbers only. -/
theorem foldl_countTrigger (f : Fleet) (rules : List Assignment) :
    ∃ metrics, rules.foldl (fun f _ => f.countTrigger .clock) f = { f with metrics } := by
  induction rules generalizing f with
  | nil => exact ⟨f.metrics, rfl⟩
  | cons rule rest ih => exact ih (f.countTrigger .clock)

theorem InOrder.fireDue (h : f.InOrder) (due : List Assignment) : (f.fireDue due).2.InOrder := by
  unfold Fleet.fireDue
  refine InOrder.carryOutAll ?_ due
  -- the triggers are all counted before the first rule is carried out
  generalize due = rules
  induction rules generalizing f with
  | nil => exact h
  | cons a rest ih => exact ih (h.countTrigger .clock)

/-- After the first rule of a completion the others are carried out, or none of them is. -/
theorem fireCompletion_cons (f : Fleet) (completed : String) (a : Assignment)
    (rest : List Assignment) :
    let fired := ((f.countTrigger .completion).carryOut a (some completed) false).2
    (f.fireCompletion completed (a :: rest)).2 = fired
      ∨ (f.fireCompletion completed (a :: rest)).2 = (fired.fireCompletion completed rest).2 := by
  rw [fireCompletion]
  dsimp only
  split
  · rename_i hok
    rw [hok]
    right
    split
    · rename_i h
      rw [h]
    · rename_i h
      rw [h]
  · rename_i hfailed
    rw [hfailed]
    exact .inr rfl
  · rename_i hhalt
    rw [hhalt]
    exact .inl rfl

theorem InOrder.fireCompletion (h : f.InOrder) (completed : String) (rules : List Assignment) :
    (f.fireCompletion completed rules).2.InOrder := by
  induction rules generalizing f with
  | nil => exact h
  | cons a rest ih =>
    have hfired := (h.countTrigger .completion).carryOut a (some completed) false
    rcases f.fireCompletion_cons completed a rest with heq | heq
    · rw [heq]
      exact hfired
    · rw [heq]
      exact ih hfired

/-! ## Placements -/

theorem InOrder.placeAll (h : f.InOrder) (rules : List Assignment) :
    (f.placeAll rules).2.InOrder := by
  refine h.moveAll (some .startup) fun m hm => ?_
  obtain ⟨d, hd, hplace⟩ := List.mem_filterMap.1 hm
  obtain ⟨rule, -, rfl⟩ := Option.map_eq_some_iff.1 hplace
  -- a device to be placed is one that the fleet knows
  rintro ⟨hunknown, -⟩
  have hget := Table.get?_of_mem (List.mem_filter.1 hd).1
  have hknown : f.devices.has d.uuid = true := Option.isSome_iff_exists.2 ⟨d, hget⟩
  rw [hknown] at hunknown
  cases hunknown

end Fleet

end ScanFleet
