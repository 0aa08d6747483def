import ScanFleet.Proofs.Fleet.Instances
import ScanFleet.Proofs.Fleet.Stable

set_option autoImplicit false

/-! # Storage as a mirror of the fleet

A device whose instance changes is written to storage, in one place after another: when it is moved,
when its instance is replaced and when its instance is removed. `Fleet.Mirrored` says that the stored
rows name the instances that the devices of the fleet work for. It is kept because a write files
exactly the rows of the devices that changed, each with the instance that it has by then. -/

namespace ScanFleet

namespace Storage

/-- Every write of a device is carried out. -/
structure Writable (s : Storage) : Prop where
  up : ∀ uuid : String, s.isDown (.updateDevice uuid) = false
  ends : s.hanging = []

/-- The storage with the row of a device. -/
def file (s : Storage) (d : Device) : Storage :=
  { s with tables := { s.tables with devices := s.tables.devices.insert d } }

/-- The storage with rows that were filed one after another. -/
def fileAll (s : Storage) (rows : List Device) : Storage := rows.foldl file s

/-- A device is stored with the instance that it works for. -/
def Backs (s : Storage) (d : Device) : Prop :=
  ∃ row, s.tables.devices.get? d.uuid = some row ∧ row.instanceName = d.instanceName

variable {s : Storage}

theorem Writable.file (h : s.Writable) (d : Device) : (s.file d).Writable := ⟨h.up, h.ends⟩

theorem Writable.fileAll (h : s.Writable) (rows : List Device) : (s.fileAll rows).Writable := by
  induction rows generalizing s with
  | nil => exact h
  | cons d rest ih => exact ih (h.file d)

theorem Writable.write_eq (h : s.Writable) (d : Device) : s.write d = .done (s.file d) := by
  unfold Storage.write
  rw [h.up, if_neg Bool.false_ne_true, if_neg (by simp [h.ends])]
  rfl

theorem Writable.writeAll_eq (h : s.Writable) (rows : List Device) :
    s.writeAll rows = (true, s.fileAll rows) := by
  induction rows generalizing s with
  | nil => rfl
  | cons d rest ih =>
    rw [writeAll, h.write_eq d]
    exact ih (h.file d)

theorem get?_file (s : Storage) (d : Device) (uuid : String) :
    (s.file d).tables.devices.get? uuid
      = if d.uuid = uuid then some d else s.tables.devices.get? uuid :=
  s.tables.devices.get?_insert d uuid

/-- A device is stored as it was, unless a row of it is filed. Then that row has to tell the
    instance. -/
theorem backs_file {row d : Device} (hrow : row.uuid = d.uuid → row.instanceName = d.instanceName)
    (h : row.uuid = d.uuid ∨ s.Backs d) : (s.file row).Backs d := by
  unfold Backs
  rw [get?_file]
  by_cases huuid : row.uuid = d.uuid
  · rw [if_pos huuid]
    exact ⟨row, rfl, hrow huuid⟩
  · rw [if_neg huuid]
    exact h.resolve_left huuid

theorem backs_fileAll {rows : List Device} {d : Device}
    (hrows : ∀ row ∈ rows, row.uuid = d.uuid → row.instanceName = d.instanceName)
    (h : (∃ row ∈ rows, row.uuid = d.uuid) ∨ s.Backs d) : (s.fileAll rows).Backs d := by
  induction rows generalizing s with
  | nil =>
    rcases h with ⟨row, hmem, -⟩ | h
    · cases hmem
    · exact h
  | cons first rest ih =>
    refine ih (fun row hrow => hrows row (List.mem_cons_of_mem first hrow)) ?_
    have hfirst := hrows first List.mem_cons_self
    rcases h with ⟨row, hmem, huuid⟩ | h
    · rcases List.mem_cons.1 hmem with rfl | hrest
      · exact .inr (backs_file hfirst (.inl huuid))
      · exact .inl ⟨row, hrest, huuid⟩
    · exact .inr (backs_file hfirst (.inr h))

end Storage

/-- Of rows that are filed one after another, only these are found besides what was there. -/
theorem Table.get?_foldl_insert {α κ : Type} [Keyed α κ] [Ord κ] [DecidableEq κ] [Std.TransOrd κ]
    [Std.LawfulEqOrd κ] {rows : List α} {t : Table α} {k : κ} {row : α}
    (h : (rows.foldl insert t).get? k = some row) : row ∈ rows ∨ t.get? k = some row := by
  induction rows generalizing t with
  | nil => exact .inr h
  | cons first rest ih =>
    rcases ih h with hrest | hfirst
    · exact .inl (List.mem_cons_of_mem first hrest)
    · rw [get?_insert] at hfirst
      split at hfirst
      · obtain rfl := Option.some.inj hfirst
        exact .inl List.mem_cons_self
      · exact .inr hfirst

namespace Fleet

/-- Every device of the fleet is stored with the instance that it works for. -/
def Mirrored (f : Fleet) : Prop :=
  ∀ uuid device, f.devices.get? uuid = some device → f.storage.Backs device

/-- Where a device works is where its row says. -/
theorem Mirrored.stored_post {f : Fleet} (h : f.Mirrored) {uuid name : String}
    (hpost : f.post? uuid = some name) :
    (f.storage.tables.devices.get? uuid).bind (·.instanceName) = some name := by
  obtain ⟨device, hget, hname⟩ := Option.bind_eq_some_iff.1 hpost
  obtain rfl : device.uuid = uuid := Table.key_of_get? hget
  obtain ⟨row, hrow, hsame⟩ := h device.uuid device hget
  rw [hrow, Option.bind_some, hsame, hname]

/-- A mirrored fleet whose writes are carried out. -/
structure InSync (f : Fleet) : Prop where
  mirrored : f.Mirrored
  writable : f.storage.Writable

variable {f : Fleet}

theorem InSync.of_eq {g : Fleet} (h : f.InSync) (hstorage : g.storage = f.storage)
    (hdevices : g.devices = f.devices) : g.InSync where
  mirrored := by
    unfold Mirrored
    rw [hstorage, hdevices]
    exact h.mirrored
  writable := by
    rw [hstorage]
    exact h.writable

theorem inSync_of_no_devices (hdevices : f.devices = .empty) (hwrites : f.storage.Writable) :
    f.InSync := by
  refine ⟨fun uuid device hget => ?_, hwrites⟩
  rw [hdevices] at hget
  cases hget

/-! ## Devices -/

/-- A device that is registered as it is stored. -/
theorem InSync.insert (h : f.InSync) {device : Device} (hstored : f.storage.Backs device) :
    ({ f with devices := f.devices.insert device } : Fleet).InSync := by
  refine ⟨fun uuid d hget => ?_, h.writable⟩
  rw [Table.get?_insert] at hget
  split at hget
  · obtain rfl := Option.some.inj hget
    exact hstored
  · exact h.mirrored uuid d hget

/-- A device whose row is filed with it. -/
theorem InSync.file (h : f.InSync) (device : Device) :
    ({ f with devices := f.devices.insert device, storage := f.storage.file device } :
      Fleet).InSync := by
  refine ⟨fun uuid d hget => ?_, h.writable.file device⟩
  rw [Table.get?_insert] at hget
  split at hget
  · obtain rfl := Option.some.inj hget
    exact Storage.backs_file (fun _ => rfl) (.inl rfl)
  · rename_i hne
    obtain rfl : d.uuid = uuid := Table.key_of_get? hget
    exact Storage.backs_file (fun heq => absurd heq hne) (.inr (h.mirrored _ d hget))

theorem InSync.removeDevice (h : f.InSync) (uuid : String) : (f.removeDevice uuid).2.InSync := by
  unfold Fleet.removeDevice
  split
  · exact h
  · rw [detach_eq]
    refine ⟨fun other d hget => ?_, h.writable⟩
    have hget : (f.devices.erase uuid).get? other = some d := hget
    rw [Table.get?_erase] at hget
    split at hget
    · cases hget
    · exact h.mirrored other d hget

theorem InSync.locate (h : f.InSync) (uuid : String) (place : Coordinate) (now : Instant) :
    (f.locate uuid place now).2.InSync := by
  unfold Fleet.locate
  split
  · exact h
  · rename_i device hget
    -- the stored row lags behind in place and time, and tells the same instance
    exact h.insert (h.mirrored uuid device hget)

theorem Offers.backs (h : f.Mirrored) {device : Device} (hoffers : f.Offers device) :
    f.storage.Backs device := by
  rcases hoffers with hknown | ⟨-, hstored⟩
  · exact h device.uuid device hknown
  · exact ⟨device, device?_ok hstored, rfl⟩

theorem InSync.move (h : f.InSync) (device : Device) (target : String) :
    (f.move device target).2.InSync := by
  rw [move_eq, h.writable.write_eq]
  refine (h.file (device.assign (some target))).of_eq ?_ ?_
  · show (attach _ _ _).storage = _
    rw [attach_eq]
  · show (attach _ _ _).devices = _
    rw [attach_eq, setOut, detach_eq]

theorem InSync.reassign (h : f.InSync) (uuid target : String) :
    (f.reassign uuid target).2.InSync := by
  obtain ⟨error, heq, -⟩ | ⟨device, -, hoffers, -, -, heq⟩ | ⟨device, -, -, -, heq⟩ :=
    f.reassign_cases uuid target
  · rw [heq]
    exact h
  · rw [heq]
    exact h.insert (hoffers.backs h.mirrored)
  · rw [heq]
    exact h.move device target

theorem stable_inSync : Stable InSync where
  countTrigger _ h := h.of_eq rfl rfl
  reassign uuid target h := h.reassign uuid target

/-! ## Instances -/

theorem InSync.install (h : f.InSync) (definition : Instance) (now : Instant) :
    (f.install definition now).2.InSync := by
  obtain ⟨job, lookups, -, -, heq⟩ | ⟨halt, g, heq, -, hdevices, hstorage⟩ :=
    f.install_cases definition now
  · rw [heq]
    exact h.of_eq rfl rfl
  · rw [heq]
    exact h.of_eq hstorage hdevices

theorem InSync.addInstance (h : f.InSync) (definition : Instance) (now : Instant) :
    (f.addInstance definition now).2.InSync := by
  have hdefined : ({ f with definitions := f.definitions.insert definition } : Fleet).InSync :=
    h.of_eq rfl rfl
  exact hdefined.install definition now

/-- A shifted row is the row of a device that works elsewhere from then on. -/
theorem get?_withdraw_of_mem_shifted {name : String} {other : Option String} {row : Device}
    (h : row ∈ f.shifted name other) : (f.withdraw name other).devices.get? row.uuid = some row := by
  unfold shifted at h
  split at h
  · cases h
  · obtain ⟨member, hmember, rfl⟩ := List.mem_map.1 h
    obtain ⟨hknown, hworks⟩ := mem_crew_iff.1 hmember
    have hshift : member.shift name other = member.assign other := by
      simp [Device.shift, Device.worksFor, hworks]
    refine (Table.get?_map _ _ (Device.key_shift name other) member.uuid).trans ?_
    rw [hknown, Option.map_some, hshift]

/-- A device of another instance stays as it is. -/
theorem get?_withdraw_of_ne {name : String} {other : Option String} {uuid : String}
    (h : f.post? uuid ≠ some name) :
    (f.withdraw name other).devices.get? uuid = f.devices.get? uuid := by
  refine (Table.get?_map _ _ (Device.key_shift name other) uuid).trans ?_
  cases hget : f.devices.get? uuid with
  | none => rfl
  | some device =>
    have hname : device.instanceName ≠ some name := by
      intro hname
      exact h (by rw [post?, hget, Option.bind_some, hname])
    rw [Option.map_some, Device.shift, Device.worksFor, beq_false_of_ne hname,
      if_neg Bool.false_ne_true]

/-- A device that is not shifted stays as it is. -/
theorem mem_shifted_or_get? {name : String} {other : Option String} {uuid : String} {device : Device}
    (h : (f.withdraw name other).devices.get? uuid = some device) :
    device ∈ f.shifted name other ∨ f.devices.get? uuid = some device := by
  by_cases hpost : f.post? uuid = some name
  · obtain ⟨former, hmember, rfl⟩ := exists_mem_crew_iff.2 hpost
    obtain ⟨hformer, hworks⟩ := mem_crew_iff.1 hmember
    have hshift : former.shift name other = former.assign other := by
      simp [Device.shift, Device.worksFor, hworks]
    replace h := (Table.get?_map _ _ (Device.key_shift name other) former.uuid).symm.trans h
    rw [hformer, Option.map_some, hshift] at h
    obtain rfl := Option.some.inj h
    by_cases hsame : other = some name
    · -- the device is shifted to where it is
      have hassign : former.assign other = former := by
        rw [hsame, ← hworks]
        rfl
      rw [hassign]
      exact .inr hformer
    · unfold shifted
      rw [if_neg hsame]
      exact .inl (List.mem_map_of_mem hmember)
  · rw [get?_withdraw_of_ne hpost] at h
    exact .inr h

/-- The rows of the devices that are shifted are those that change. -/
theorem InSync.withdraw (h : f.InSync) (name : String) (other : Option String) :
    ({ f.withdraw name other with storage := f.storage.fileAll (f.shifted name other) } :
      Fleet).InSync := by
  refine ⟨fun uuid device hget => ?_, h.writable.fileAll _⟩
  have hget : (f.withdraw name other).devices.get? uuid = some device := hget
  obtain rfl : device.uuid = uuid := Table.key_of_get? hget
  refine Storage.backs_fileAll (fun row hrow huuid => ?_) ?_
  · -- a shifted row of the device is the device as it is registered by then
    have hshifted := get?_withdraw_of_mem_shifted hrow
    rw [huuid, hget] at hshifted
    obtain rfl := Option.some.inj hshifted
    rfl
  · exact (mem_shifted_or_get? hget).imp (fun hmem => ⟨device, hmem, rfl⟩) (h.mirrored _ device)

theorem InSync.replaceInstance (h : f.InSync) (definition : Instance) (old : String)
    (now : Instant) : (f.replaceInstance definition old now).2.InSync := by
  have hwithdrawn := h.withdraw old (some definition.name)
  unfold Fleet.replaceInstance
  dsimp only [Fleet.withdraw]
  rw [h.writable.writeAll_eq]
  dsimp only
  refine InSync.install ?_ definition now
  exact hwithdrawn.of_eq rfl rfl

theorem InSync.removeInstance (h : f.InSync) (name : String) :
    (f.removeInstance name).2.InSync := by
  have hwithdrawn := h.withdraw name none
  unfold Fleet.removeInstance
  dsimp only [Fleet.withdraw]
  rw [h.writable.writeAll_eq]
  split
  · exact h
  · exact hwithdrawn.of_eq rfl rfl

/-! ## Loading -/

theorem storage_installAll (f : Fleet) (now : Instant) (instances : List Instance) :
    (f.installAll now instances).2.storage = f.storage := by
  induction instances generalizing f with
  | nil => rfl
  | cons definition rest ih =>
    rw [installAll_cons, ih]
    obtain ⟨lookups, -, ⟨-, job, -, -, heq⟩ | ⟨-, heq⟩⟩ := f.afterBuild_cases definition now
    · rw [heq]
      rfl
    · rw [heq]
      rfl

/-- A start adds devices as they are stored. -/
theorem InSync.start (h : f.InSync) (now : Instant) : (f.start now).2.InSync := by
  obtain ⟨devices, instances, hdevices, -, heq⟩ | ⟨-, heq⟩ := f.start_cases now
  · have hrows : f.storage.tables.devices.rows = devices := Storage.eq_of_read hdevices
    have hloaded : (f.loaded devices instances).InSync := by
      refine ⟨fun uuid d hget => ?_, h.writable⟩
      rcases Table.get?_foldl_insert hget with hmem | hknown
      · rw [← hrows] at hmem
        exact ⟨d, Table.get?_of_mem hmem, rfl⟩
      · exact h.mirrored uuid d hknown
    rw [heq]
    exact hloaded.of_eq (storage_installAll _ now instances) (devices_installAll _ now instances)
  · rw [heq]
    exact h

theorem InSync.stop (h : f.InSync) : f.stop.InSync := inSync_of_no_devices rfl h.writable

theorem InSync.restart (h : f.InSync) (now : Instant) : (f.restart now).2.InSync := by
  have hstopped : ({ f.stop with lookups := f.stop.lookups.refresh } : Fleet).InSync :=
    inSync_of_no_devices rfl h.writable
  exact hstopped.start now

end Fleet

end ScanFleet
