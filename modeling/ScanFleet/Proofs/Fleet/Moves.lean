import ScanFleet.Proofs.Fleet.Attachment

set_option autoImplicit false

/-! # Attachment under changes of the devices

Adding, removing, replacing and moving devices. Two of these can leave the table of devices and the
crews of the live jobs in disagreement, each in exactly one way: a replacement that overwrites a
device which is at work elsewhere (`Fleet.Overwrites`), and a move of a device that is stored as
already being where it is to go (`Fleet.Overlooks`). -/

namespace ScanFleet

namespace Fleet

/-- A fleet in which the two places agree, no live job is broken and every write ends. -/
structure InOrder (f : Fleet) : Prop extends f.Fit where
  agrees : f.Agrees

/-! ## Adding, removing and replacing -/

theorem Fit.addDevice {f : Fleet} (h : f.Fit) (device : Device) : (f.addDevice device).2.Fit := by
  unfold Fleet.addDevice
  split
  · exact h
  · exact (h.withDevices _).attach _ _

/-- A device that is added is attached to the job that it works for. -/
theorem agrees_addDevice {f : Fleet} (h : f.InOrder) (device : Device) :
    (f.addDevice device).2.Agrees := by
  unfold addDevice
  split
  · exact h.agrees
  · rename_i hnew
    have hpost := post?_eq_none_of_not_has (Bool.not_eq_true _ ▸ hnew)
    intro name
    have hfit := h.withDevices (f.devices.insert device)
    refine (agreesOn_iff_of_change (h.agrees name)
      (attached?_attach hfit device.instanceName device.uuid name)).2 fun _ uuid => ?_
    rw [post?_attach, post?_insert]
    -- nobody worked anywhere under the new uuid
    by_cases huuid : device.uuid = uuid
    · subst huuid
      simp [hpost]
    · simp [huuid]

theorem Fit.removeDevice {f : Fleet} (h : f.Fit) (uuid : String) :
    (f.removeDevice uuid).2.Fit := by
  unfold Fleet.removeDevice
  split
  · exact h
  · exact (h.withDevices _).detach _ _

/-- A device that is removed is detached from the job that it worked for. -/
theorem agrees_removeDevice {f : Fleet} (h : f.InOrder) (uuid : String) :
    (f.removeDevice uuid).2.Agrees := by
  unfold removeDevice
  split
  · exact h.agrees
  · rename_i device hget
    have hpost : f.post? uuid = device.instanceName := by rw [post?, hget, Option.bind_some]
    intro name
    have hfit := h.withDevices (f.devices.erase uuid)
    refine (agreesOn_iff_of_change (h.agrees name)
      (attached?_detach hfit device.instanceName uuid name)).2 fun _ other => ?_
    rw [post?_detach, post?_erase]
    by_cases hother : uuid = other
    · subst hother
      simp [hpost]
    · simp [hother]

/-- The replacement is registered already, under another uuid than the replaced device, and is
    attached to a live job that it no longer works for. Its row is overwritten and the job keeps it. -/
def Overwrites (f : Fleet) (device : Device) (old : String) : Prop :=
  device.uuid ≠ old ∧ ∃ name, f.jobs.has name = true ∧ f.post? device.uuid = some name ∧
    device.instanceName ≠ some name

theorem Fit.replaceDevice {f : Fleet} (h : f.Fit) (device : Device) (old : String) :
    (f.replaceDevice device old).Fit :=
  ((h.withDevices _).detach _ _).attach _ _

/-- What a replacement does to the instances of devices. -/
theorem post?_replaceDevice (f : Fleet) (device : Device) (old uuid : String) :
    (f.replaceDevice device old).post? uuid
      = if device.uuid = uuid then device.instanceName
        else if old = uuid then none else f.post? uuid := by
  rw [replaceDevice, post?_attach, post?_detach]
  refine (post?_insert { f with devices := f.devices.erase old } device uuid).trans ?_
  rw [post?_erase]

/-- What a replacement does to crews. -/
theorem attached?_replaceDevice {f : Fleet} (h : f.Fit) (device : Device) (old name uuid : String) :
    (f.replaceDevice device old).attached? name uuid
      = (f.attached? name uuid).map fun before =>
          decide (device.instanceName = some name ∧ device.uuid = uuid)
            || (!decide (f.post? old = some name ∧ old = uuid) && before) := by
  have hfit := h.withDevices ((f.devices.erase old).insert device)
  rw [replaceDevice, attached?_attach (hfit.detach _ _), attached?_detach hfit, Option.map_map]
  rfl

/-- A replacement keeps the two places in agreement exactly when it overwrites nobody at work. -/
theorem agrees_replaceDevice_iff {f : Fleet} (h : f.InOrder) (device : Device) (old : String) :
    (f.replaceDevice device old).Agrees ↔ ¬ f.Overwrites device old := by
  have hstep : ∀ name, (f.replaceDevice device old).AgreesOn name ↔ _ := fun name =>
    agreesOn_iff_of_change (h.agrees name) (attached?_replaceDevice h.toFit device old name)
  constructor
  · rintro hafter ⟨hne, name, hlive, hpost, hleaves⟩
    have hkept := (hstep name).1 (hafter name) hlive device.uuid
    rw [post?_replaceDevice, if_pos rfl] at hkept
    simp [hpost, hleaves, Ne.symm hne] at hkept
  · intro hnot name
    refine (hstep name).2 fun hlive uuid => ?_
    rw [post?_replaceDevice]
    by_cases huuid : device.uuid = uuid
    · subst huuid
      rw [if_pos rfl]
      by_cases hold : old = device.uuid
      · -- the device is detached before it is attached, so it is in one crew at most
        subst hold
        by_cases hgoes : device.instanceName = some name
        · simp [hgoes]
        · by_cases hwas : f.post? device.uuid = some name
          · simp [hgoes, hwas]
          · simp [hgoes, hwas]
      · -- the job keeps the overwritten device, so that one has to work for it on
        have hstays : f.post? device.uuid = some name → device.instanceName = some name := by
          intro hpost
          exact Decidable.byContradiction fun hleaves =>
            hnot ⟨Ne.symm hold, name, hlive, hpost, hleaves⟩
        by_cases hwas : f.post? device.uuid = some name
        · simp [hstays hwas]
        · simp [hwas]
    · by_cases hold : old = uuid
      · subst hold
        by_cases hwas : f.post? old = some name
        · simp [huuid, hwas]
        · simp [huuid, hwas]
      · simp [huuid, hold]

/-- Filing the row of a device keeps the two places in agreement exactly when every live job has the
    device if the row says so. -/
theorem agrees_insert_iff {f : Fleet} (h : f.InOrder) (device : Device) :
    ({ f with devices := f.devices.insert device } : Fleet).Agrees
      ↔ ∀ name, f.jobs.has name = true →
          (f.post? device.uuid = some name ↔ device.instanceName = some name) := by
  have hstep : ∀ name, ({ f with devices := f.devices.insert device } : Fleet).AgreesOn name ↔ _ :=
    fun name => agreesOn_iff_of_job_eq (h.agrees name) rfl
  constructor
  · intro hafter name hlive
    have hkept := (hstep name).1 (hafter name) hlive device.uuid
    rwa [post?_insert, if_pos rfl] at hkept
  · intro hsame name
    refine (hstep name).2 fun hlive uuid => ?_
    rw [post?_insert]
    split
    · rename_i huuid
      exact huuid ▸ hsame name hlive
    · exact Iff.rfl

/-! ## Moving one device -/

/-- A write of a row ends when no write hangs. Either way only what is stored of the device changes,
    and no write hangs afterwards. -/
theorem write_ends {s : Storage} (h : s.hanging = []) (d : Device) :
    s.write d = .failed ∨ ∃ t : Storage, s.write d = .done t ∧ t.hanging = [] ∧
      ∀ uuid, uuid ≠ d.uuid → t.device? uuid = s.device? uuid := by
  unfold Storage.write
  split
  · exact .inl rfl
  · rw [if_neg (by simp [h])]
    refine .inr ⟨_, rfl, h, fun uuid hne => ?_⟩
    have hkey : ¬ key d = uuid := Ne.symm hne
    simp only [Storage.device?, Table.get?_insert, if_neg hkey]
    rfl

/-- The fleet when a device has set out for another instance: its row names that instance already, and
    it has left its job. -/
def setOut (f : Fleet) (device : Device) (target : String) : Fleet :=
  detach { f with devices := f.devices.insert (device.assign (some target)) } device.instanceName
    device.uuid

theorem Fit.setOut {f : Fleet} (h : f.Fit) (device : Device) (target : String) :
    (f.setOut device target).Fit :=
  (h.withDevices _).detach _ _

theorem storage_setOut (f : Fleet) (device : Device) (target : String) :
    (f.setOut device target).storage = f.storage := by
  rw [setOut, detach_eq]

theorem move_eq (f : Fleet) (device : Device) (target : String) :
    f.move device target =
      match f.storage.write (device.assign (some target)) with
      | .hangs => (.error .stalled, f.setOut device target)
      | .failed =>
        (.ok (), ((f.setOut device target).attach (some target) device.uuid).countReassignment)
      | .done storage =>
        (.ok (), (attach { f.setOut device target with storage } (some target)
          device.uuid).countReassignment) := by
  rw [← f.storage_setOut device target]
  rfl

/-- When writes end, a device that has set out gets to the job of its target. -/
theorem move_ends {f : Fleet} (h : f.Fit) (device : Device) (target : String) :
    ∃ storage : Storage, storage.hanging = [] ∧
      (∀ uuid, uuid ≠ device.uuid → storage.device? uuid = f.storage.device? uuid) ∧
      f.move device target = (.ok (),
        (attach { f.setOut device target with storage } (some target)
          device.uuid).countReassignment) := by
  rw [move_eq]
  obtain hfailed | ⟨storage, hdone, hends, hrest⟩ :=
    write_ends h.ends (device.assign (some target))
  · -- a move stands also when its row is not written
    refine ⟨f.storage, h.ends, fun _ _ => rfl, ?_⟩
    rw [hfailed, ← f.storage_setOut device target]
  · refine ⟨storage, hends, hrest, ?_⟩
    rw [hdone]

/-- What a move does to the instances of devices. -/
theorem post?_move {f : Fleet} (h : f.Fit) (device : Device) (target uuid : String) :
    (f.move device target).2.post? uuid
      = if device.uuid = uuid then some target else f.post? uuid := by
  obtain ⟨storage, -, -, hmove⟩ := move_ends h device target
  rw [hmove]
  refine (post?_attach _ _ _ uuid).trans ((post?_detach _ _ _ uuid).trans ?_)
  exact post?_insert f (device.assign (some target)) uuid

/-- What a move does to crews. -/
theorem attached?_move {f : Fleet} (h : f.Fit) (device : Device) (target name uuid : String) :
    (f.move device target).2.attached? name uuid
      = (f.attached? name uuid).map fun before =>
          decide (some target = some name ∧ device.uuid = uuid)
            || (!decide (device.instanceName = some name ∧ device.uuid = uuid) && before) := by
  obtain ⟨storage, hends, -, hmove⟩ := move_ends h device target
  have hstored := (h.setOut device target).withStorage hends
  rw [hmove]
  refine (attached?_attach hstored (some target) device.uuid name uuid).trans ?_
  have hleft := attached?_detach (h.withDevices (f.devices.insert (device.assign (some target))))
    device.instanceName device.uuid name uuid
  refine (congrArg _ hleft).trans ?_
  rw [Option.map_map]
  rfl

theorem Fit.move {f : Fleet} (h : f.Fit) (device : Device) (target : String) :
    (f.move device target).2.Fit := by
  obtain ⟨storage, hends, -, hmove⟩ := move_ends h device target
  have hstored := (h.setOut device target).withStorage hends
  rw [hmove]
  exact (hstored.attach (some target) device.uuid).of_eq rfl rfl

/-- A device moves from the instance that the fleet knows it on, or else from none. -/
theorem agrees_move {f : Fleet} (h : f.InOrder) {device : Device}
    (hknown : f.post? device.uuid = device.instanceName ∨ f.post? device.uuid = none)
    (target : String) : (f.move device target).2.Agrees := by
  intro name
  refine (agreesOn_iff_of_change (h.agrees name) (attached?_move h.toFit device target name)).2
    fun _ uuid => ?_
  rw [post?_move h.toFit]
  by_cases huuid : device.uuid = uuid
  · subst huuid
    -- a device that the fleet did not know is in no crew, whatever its row says
    rcases hknown with hpost | hpost
    · by_cases hwas : device.instanceName = some name
      · simp [hpost, hwas]
      · simp [hpost, hwas]
    · simp [hpost]
  · simp [huuid]

/-! ## Moving a device to an instance -/

theorem device?_ok {s : Storage} {uuid : String} {found : Option Device}
    (h : s.device? uuid = .ok found) : s.tables.devices.get? uuid = found :=
  Storage.eq_of_read h

/-- The fleet knows the device, or else the device is stored. -/
def Offers (f : Fleet) (device : Device) : Prop :=
  f.devices.get? device.uuid = some device ∨
    f.devices.has device.uuid = false ∧ f.storage.device? device.uuid = .ok (some device)

/-- The fleet does not know the device, and it is stored as working for the instance. -/
def AlreadyThere (f : Fleet) (uuid target : String) : Prop :=
  f.devices.has uuid = false ∧
    ∃ device, f.storage.device? uuid = .ok (some device) ∧ device.worksFor target = true

/-- A device is to go to the live job of an instance, and is taken for being there: the row is
    registered and the job is not told. -/
def Overlooks (f : Fleet) (uuid target : String) : Prop :=
  f.definitions.has target = true ∧ f.jobs.has target = true ∧ f.AlreadyThere uuid target

theorem recruit_ok {f : Fleet} {uuid : String} {device : Device}
    (h : f.recruit uuid = .ok device) : device.uuid = uuid ∧ f.Offers device := by
  unfold recruit at h
  split at h
  · rename_i known hknown
    obtain rfl := Except.ok.inj h
    obtain rfl : known.uuid = uuid := Table.key_of_get? hknown
    exact ⟨rfl, .inl hknown⟩
  · rename_i hunknown
    split at h
    · cases h
    · cases h
    · rename_i stored hstored
      obtain rfl := Except.ok.inj h
      obtain rfl : stored.uuid = uuid := Table.key_of_get? (device?_ok hstored)
      exact ⟨rfl, .inr ⟨by rw [Table.has, hunknown, Option.isSome_none], hstored⟩⟩

/-- A stored device that the fleet does not know can be recruited. -/
theorem AlreadyThere.recruit {f : Fleet} {uuid target : String} (h : f.AlreadyThere uuid target) :
    ∃ device, f.recruit uuid = .ok device ∧ device.worksFor target = true := by
  obtain ⟨hunknown, device, hstored, hthere⟩ := h
  have hget : f.devices.get? uuid = none := by simpa [Table.has] using hunknown
  refine ⟨device, ?_, hthere⟩
  rw [Fleet.recruit, hget, hstored]

/-- What becomes of an order to move a device: it is refused, the device is there already, or it
    moves. -/
theorem reassign_cases (f : Fleet) (uuid target : String) :
    (∃ error, f.reassign uuid target = (.error (.failed error), f)
        ∧ ¬ (f.definitions.has target = true ∧ f.AlreadyThere uuid target))
      ∨ (∃ device, device.uuid = uuid ∧ f.Offers device ∧ f.definitions.has target = true
        ∧ device.worksFor target = true
        ∧ f.reassign uuid target = (.ok (), { f with devices := f.devices.insert device }))
      ∨ ∃ device, device.uuid = uuid ∧ f.Offers device ∧ ¬ f.AlreadyThere uuid target
        ∧ f.reassign uuid target = f.move device target := by
  unfold reassign
  cases hdefined : f.definitions.has target with
  | false => exact .inl ⟨_, rfl, by simp⟩
  | true =>
    cases hrecruit : f.recruit uuid with
    | error error =>
      refine .inl ⟨error, rfl, ?_⟩
      rintro ⟨-, hthere⟩
      obtain ⟨device, hdevice, -⟩ := hthere.recruit
      rw [hdevice] at hrecruit
      cases hrecruit
    | ok device =>
      obtain ⟨huuid, hoffers⟩ := recruit_ok hrecruit
      by_cases hworks : device.worksFor target = true
      · refine .inr (.inl ⟨device, huuid, hoffers, rfl, hworks, ?_⟩)
        simp only [hworks, Bool.not_true, if_true]
        rfl
      · refine .inr (.inr ⟨device, huuid, hoffers, ?_, ?_⟩)
        · intro hthere
          obtain ⟨other, hother, hgoes⟩ := hthere.recruit
          rw [hrecruit] at hother
          obtain rfl := Except.ok.inj hother
          exact hworks hgoes
        · simp only [hworks, Bool.not_true]
          rfl

theorem Offers.post? {f : Fleet} {device : Device} (h : f.Offers device) :
    f.post? device.uuid = device.instanceName ∨ f.post? device.uuid = none := by
  rcases h with hknown | ⟨hunknown, -⟩
  · left
    rw [Fleet.post?, hknown, Option.bind_some]
  · exact .inr (post?_eq_none_of_not_has hunknown)

theorem Fit.reassign {f : Fleet} (h : f.Fit) (uuid target : String) :
    (f.reassign uuid target).2.Fit := by
  obtain ⟨error, heq, -⟩ | ⟨device, -, -, -, -, heq⟩ | ⟨device, -, -, -, heq⟩ :=
    f.reassign_cases uuid target
  · rw [heq]
    exact h
  · rw [heq]
    exact h.withDevices _
  · rw [heq]
    exact h.move device target

/-- An order to move a device keeps the two places in agreement exactly when no device is overlooked. -/
theorem agrees_reassign_iff {f : Fleet} (h : f.InOrder) (uuid target : String) :
    (f.reassign uuid target).2.Agrees ↔ ¬ f.Overlooks uuid target := by
  obtain ⟨error, heq, hnot⟩ | ⟨device, rfl, hoffers, hdefined, hworks, heq⟩
    | ⟨device, rfl, hoffers, hnot, heq⟩ := f.reassign_cases uuid target
  · rw [heq]
    exact iff_of_true h.agrees fun hover => hnot ⟨hover.1, hover.2.2⟩
  · have hname : device.instanceName = some target := by simpa [Device.worksFor] using hworks
    rw [heq, agrees_insert_iff h]
    rcases hoffers with hknown | ⟨hunknown, hstored⟩
    · refine iff_of_true (fun name _ => ?_) fun hover => ?_
      · rw [post?, hknown, Option.bind_some]
      · have hfalse := hover.2.2.1
        rw [Table.has, hknown] at hfalse
        cases hfalse
    · -- the row is new to the fleet, so that only a missing job keeps the job from missing it
      have hpost := post?_eq_none_of_not_has hunknown
      constructor
      · rintro hsame ⟨-, hlive, -⟩
        have hthere := (hsame target hlive).2 hname
        rw [hpost] at hthere
        cases hthere
      · intro hnot name hlive
        rw [hpost, hname]
        constructor
        · intro hnone
          cases hnone
        · intro heq
          obtain rfl := Option.some.inj heq
          exact absurd ⟨hdefined, hlive, hunknown, device, hstored, hworks⟩ hnot
  · rw [heq]
    exact iff_of_true (agrees_move h hoffers.post? target) fun hover => hnot hover.2.2

theorem InOrder.reassign {f : Fleet} (h : f.InOrder) {uuid target : String}
    (hnot : ¬ f.AlreadyThere uuid target) : (f.reassign uuid target).2.InOrder :=
  ⟨h.toFit.reassign uuid target,
    (agrees_reassign_iff h uuid target).2 fun hover => hnot hover.2.2⟩

/-- No order to move a device makes another device overlooked later. -/
theorem AlreadyThere.of_reassign {f : Fleet} (h : f.Fit) {uuid target other goal : String}
    (hthere : (f.reassign uuid target).2.AlreadyThere other goal) : f.AlreadyThere other goal := by
  obtain ⟨error, heq, -⟩ | ⟨device, rfl, -, -, -, heq⟩ | ⟨device, rfl, -, -, heq⟩ :=
    f.reassign_cases uuid target
  · rwa [heq] at hthere
  · rw [heq] at hthere
    obtain ⟨hunknown, hstored⟩ := hthere
    refine ⟨?_, hstored⟩
    rw [Table.has_insert, Bool.or_eq_false_iff] at hunknown
    exact hunknown.2
  · -- after a move the fleet knows the device, and of all others the same is stored
    obtain ⟨storage, -, hrest, hmove⟩ := move_ends h device target
    rw [heq, hmove] at hthere
    obtain ⟨hunknown, stored, hstored, hworks⟩ := hthere
    have hdevices : (attach { f.setOut device target with storage } (some target)
        device.uuid).devices = f.devices.insert (device.assign (some target)) := by
      rw [attach_eq, setOut, detach_eq]
    have hstorage : (attach { f.setOut device target with storage } (some target)
        device.uuid).storage = storage := by
      rw [attach_eq]
    replace hunknown : (f.devices.insert (device.assign (some target))).has other = false :=
      hdevices ▸ hunknown
    replace hstored : storage.device? other = .ok (some stored) := hstorage ▸ hstored
    rw [Table.has_insert, Bool.or_eq_false_iff, decide_eq_false_iff_not] at hunknown
    refine ⟨hunknown.2, stored, ?_, hworks⟩
    rw [← hrest other (Ne.symm hunknown.1)]
    exact hstored

end Fleet

end ScanFleet
