import ScanFleet.Proofs.Fleet.Mirror

set_option autoImplicit false

/-! # Where devices are sent

What orders to move do to a fleet is told device by device, whatever is wrong with storage. A device can
be had when the fleet knows it, or when its row can be read (`Fleet.reach?`). An order sends such a device
to its instance, if that is defined, and changes nothing else about it; only a device that sets out from
elsewhere has its row written and its move counted. Orders to one device name one instance, so that a
later order finds it there: a list of orders does what its set of devices says (`Fleet.Obeyed`), and it
comes to an end exactly when no device that sets out waits for a write that hangs
(`Fleet.moveAll_outcome`). -/

namespace ScanFleet

/-- A device that is sent to where it is stays as it is. -/
theorem Device.assign_of_worksFor {device : Device} {name : String}
    (hworks : device.worksFor name = true) : device.assign (some name) = device := by
  have hname : device.instanceName = some name := by simpa [worksFor] using hworks
  rw [assign, ← hname]

namespace Storage

theorem read_eq {α : Type} {s : Storage} {access : StorageAccess} (h : s.isDown access = false)
    (answer : α) : s.read access answer = .ok answer := by
  rw [read, h]
  rfl

theorem read_of_down {α : Type} {s : Storage} {access : StorageAccess} (h : s.isDown access = true)
    (answer : α) : ∃ error, s.read access answer = .error error :=
  ⟨_, if_pos h⟩

/-- A write of the device never comes to an end. -/
def Hangs (s : Storage) (uuid : String) : Prop :=
  s.isDown (.updateDevice uuid) = false ∧ uuid ∈ s.hanging

/-- The storage after a write that came to an end: the row is filed, unless its write fails. -/
def written (s : Storage) (d : Device) : Storage :=
  if s.isDown (.updateDevice d.uuid) then s else s.file d

variable {s : Storage} {d : Device}

theorem write_of_hangs (h : s.Hangs d.uuid) : s.write d = .hangs := by
  rw [write, h.1, if_neg Bool.false_ne_true, if_pos h.2]

theorem write_of_not_hangs (h : ¬ s.Hangs d.uuid) :
    s.write d = .failed ∧ s.written d = s ∨ s.write d = .done (s.written d) := by
  unfold write written
  cases hdown : s.isDown (.updateDevice d.uuid) with
  | true => exact .inl ⟨rfl, rfl⟩
  | false =>
    have hends : d.uuid ∉ s.hanging := fun hmem => h ⟨hdown, hmem⟩
    exact .inr (if_neg hends)

/-- A write changes the rows of devices and nothing else. -/
theorem written_eq (s : Storage) (d : Device) :
    s.written d
      = { s with tables := { s.tables with devices := (s.written d).tables.devices } } := by
  unfold written
  split
  · rfl
  · rfl

/-- A write files the row of its device, or none. -/
theorem get?_written (s : Storage) (d : Device) (uuid : String) :
    (s.written d).tables.devices.get? uuid
      = if s.isDown (.updateDevice uuid) = false ∧ d.uuid = uuid then some d
        else s.tables.devices.get? uuid := by
  unfold written
  by_cases huuid : d.uuid = uuid
  · subst huuid
    cases s.isDown (.updateDevice d.uuid) with
    | true => simp
    | false => simp [get?_file]
  · cases s.isDown (.updateDevice d.uuid) with
    | true => simp [huuid]
    | false => simp [huuid, get?_file]

/-- Devices and groups can be read. -/
structure Readable (s : Storage) : Prop where
  group : ∀ name : String, s.isDown (.group name) = false
  device : ∀ uuid : String, s.isDown (.device uuid) = false
  devices : ∀ uuids : List String, s.isDown (.devices uuids) = false

/-- Devices and groups can be read, and every write comes to an end. -/
structure Responsive (s : Storage) : Prop where
  group : ∀ name : String, s.isDown (.group name) = false
  device : ∀ uuid : String, s.isDown (.device uuid) = false
  devices : ∀ uuids : List String, s.isDown (.devices uuids) = false
  ends : s.hanging = []

theorem Responsive.readable (hs : s.Responsive) : s.Readable := ⟨hs.group, hs.device, hs.devices⟩

theorem Responsive.not_hangs (hs : s.Responsive) (uuid : String) : ¬ s.Hangs uuid := by
  rintro ⟨-, hmem⟩
  rw [hs.ends] at hmem
  cases hmem

end Storage

namespace Fleet

variable {f g h : Fleet}

/-- A device as the fleet knows it, or else as it is stored. -/
def device? (f : Fleet) (uuid : String) : Option Device :=
  (f.devices.get? uuid).or (f.storage.tables.devices.get? uuid)

theorem device?_of_known {uuid : String} {device : Device} (hget : f.devices.get? uuid = some device) :
    f.device? uuid = some device := by
  rw [device?, hget, Option.some_or]

theorem uuid_of_device? {uuid : String} {device : Device} (hd : f.device? uuid = some device) :
    device.uuid = uuid := by
  rcases Option.or_eq_some_iff.1 hd with hknown | ⟨-, hstored⟩
  · exact Table.key_of_get? hknown
  · exact Table.key_of_get? hstored

/-- What the fleet knows of a device, from the devices that it knows at all. -/
theorem get?_devices (f : Fleet) (uuid : String) :
    f.devices.get? uuid = if f.devices.has uuid then f.device? uuid else none := by
  rw [Table.has, device?]
  cases f.devices.get? uuid with
  | none => rfl
  | some device => rfl

/-! ## Devices that can be had -/

/-- A device as the fleet knows it, or else as it is read from storage. -/
def reach? (f : Fleet) (uuid : String) : Option Device :=
  (f.devices.get? uuid).or
    (if f.storage.isDown (.device uuid) then none else f.storage.tables.devices.get? uuid)

theorem reach?_of_known {uuid : String} {device : Device} (hget : f.devices.get? uuid = some device) :
    f.reach? uuid = some device := by
  rw [reach?, hget, Option.some_or]

/-- A known or stored device can be had when it can be read. -/
theorem reach?_eq_device? {uuid : String} (hread : f.storage.isDown (.device uuid) = false) :
    f.reach? uuid = f.device? uuid := by
  rw [reach?, hread, device?]
  rfl

/-- A device that can be had is known or stored. -/
theorem device?_of_reach? {uuid : String} {device : Device} (hreach : f.reach? uuid = some device) :
    f.device? uuid = some device := by
  unfold reach? at hreach
  split at hreach
  · rw [Option.or_none] at hreach
    exact device?_of_known hreach
  · exact hreach

theorem recruit_of_reach? {uuid : String} {device : Device} (hreach : f.reach? uuid = some device) :
    f.recruit uuid = .ok device := by
  unfold recruit
  rcases Option.or_eq_some_iff.1 hreach with hknown | ⟨hunknown, hstored⟩
  · rw [hknown]
  · split at hstored
    · cases hstored
    · rename_i hread
      rw [hunknown, Storage.device?, Storage.read_eq (Bool.not_eq_true _ ▸ hread), hstored]

theorem recruit_of_not_reach? {uuid : String} (hreach : f.reach? uuid = none) :
    ∃ error, f.recruit uuid = .error error := by
  obtain ⟨hunknown, hstored⟩ := Option.or_eq_none_iff.1 hreach
  unfold recruit
  rw [hunknown, Storage.device?]
  split at hstored
  · rename_i hdown
    obtain ⟨error, herror⟩ := Storage.read_of_down hdown (f.storage.tables.devices.get? uuid)
    rw [herror]
    exact ⟨error, rfl⟩
  · rename_i hread
    rw [Storage.read_eq (Bool.not_eq_true _ ▸ hread), hstored]
    exact ⟨_, rfl⟩

/-! ## One order -/

/-- An order can be followed: the instance is defined, and the device can be had. -/
def canFollow (f : Fleet) (uuid target : String) : Bool :=
  f.definitions.has target && (f.reach? uuid).isSome

/-- An order makes the device set out: it can be followed, and the device works elsewhere. -/
def setsOut (f : Fleet) (uuid target : String) : Bool :=
  f.definitions.has target && (f.reach? uuid).any fun device => !device.worksFor target

theorem canFollow_of_setsOut {uuid target : String} (hsets : f.setsOut uuid target = true) :
    f.canFollow uuid target = true := by
  unfold setsOut at hsets
  unfold canFollow
  cases hreach : f.reach? uuid with
  | none => simp [hreach] at hsets
  | some device => simpa using (Bool.and_eq_true_iff.1 hsets).1

/-- Only what tells of devices is another: their table, their rows, the crews of jobs, and the
    counters. -/
def Aside (f g : Fleet) : Prop :=
  ∃ (devices stored : Table Device) (jobs : Table Job) (metrics : Metrics),
    g = { f with
      storage := { f.storage with tables := { f.storage.tables with devices := stored } }
      devices, jobs, metrics }

namespace Aside

theorem refl (f : Fleet) : f.Aside f := ⟨_, _, _, _, rfl⟩

theorem trans (hfg : f.Aside g) (hgh : g.Aside h) : f.Aside h := by
  obtain ⟨devices, stored, jobs, metrics, rfl⟩ := hfg
  obtain ⟨devices, stored, jobs, metrics, rfl⟩ := hgh
  exact ⟨devices, stored, jobs, metrics, rfl⟩

theorem definitions (hfg : f.Aside g) : g.definitions = f.definitions := by
  obtain ⟨devices, stored, jobs, metrics, rfl⟩ := hfg
  rfl

theorem groups (hfg : f.Aside g) : g.storage.tables.groups = f.storage.tables.groups := by
  obtain ⟨devices, stored, jobs, metrics, rfl⟩ := hfg
  rfl

theorem down (hfg : f.Aside g) : g.storage.down = f.storage.down := by
  obtain ⟨devices, stored, jobs, metrics, rfl⟩ := hfg
  rfl

theorem isDown_eq (hfg : f.Aside g) (access : StorageAccess) :
    g.storage.isDown access = f.storage.isDown access := by
  rw [Storage.isDown, Storage.isDown, hfg.down]

theorem hanging (hfg : f.Aside g) : g.storage.hanging = f.storage.hanging := by
  obtain ⟨devices, stored, jobs, metrics, rfl⟩ := hfg
  rfl

theorem hangs_iff (hfg : f.Aside g) (uuid : String) :
    g.storage.Hangs uuid ↔ f.storage.Hangs uuid := by
  unfold Storage.Hangs
  rw [hfg.isDown_eq, hfg.hanging]

theorem attach (hfg : f.Aside g) (name : Option String) (uuid : String) :
    f.Aside (g.attach name uuid) := by
  rw [attach_eq]
  exact hfg.trans ⟨g.devices, g.storage.tables.devices, _, g.metrics, rfl⟩

theorem detach (hfg : f.Aside g) (name : Option String) (uuid : String) :
    f.Aside (g.detach name uuid) := by
  rw [detach_eq]
  exact hfg.trans ⟨g.devices, g.storage.tables.devices, _, g.metrics, rfl⟩

theorem written (hfg : f.Aside g) (d : Device) :
    f.Aside { g with storage := f.storage.written d } := by
  obtain ⟨devices, stored, jobs, metrics, rfl⟩ := hfg
  refine ⟨devices, (f.storage.written d).tables.devices, jobs, metrics, ?_⟩
  rw [← Storage.written_eq]

theorem withMetrics (hfg : f.Aside g) (metrics : Metrics) : f.Aside { g with metrics } := by
  obtain ⟨devices, stored, jobs, -, rfl⟩ := hfg
  exact ⟨devices, stored, jobs, metrics, rfl⟩

end Aside

/-- What is left of a fleet by a device that moved. -/
structure Moved (f : Fleet) (device : Device) (target : String) (g : Fleet) : Prop where
  aside : f.Aside g
  devices : g.devices = f.devices.insert (device.assign (some target))
  storage : g.storage = f.storage.written (device.assign (some target))
  metrics : g.metrics = f.metrics.countReassignment

theorem move_of_hangs {device : Device} (hhangs : f.storage.Hangs device.uuid) (target : String) :
    ∃ g, f.move device target = (.error .stalled, g) := by
  rw [move_eq, Storage.write_of_hangs (d := device.assign (some target)) hhangs]
  exact ⟨_, rfl⟩

theorem moved_move {device : Device} (hends : ¬ f.storage.Hangs device.uuid) (target : String) :
    ∃ g, f.move device target = (.ok (), g) ∧ f.Moved device target g := by
  have haside : f.Aside (f.setOut device target) :=
    Aside.detach ⟨_, f.storage.tables.devices, f.jobs, f.metrics, rfl⟩ _ _
  have hleft : f.Moved device target
      (Fleet.attach { f.setOut device target with
          storage := f.storage.written (device.assign (some target)) } (some target)
        device.uuid).countReassignment := by
    have hattached := (haside.written (device.assign (some target))).attach (some target) device.uuid
    refine ⟨hattached.withMetrics _, ?_, ?_, ?_⟩
    all_goals
      unfold setOut
      rw [attach_eq, detach_eq]
      rfl
  rw [move_eq]
  rcases Storage.write_of_not_hangs (d := device.assign (some target)) hends
    with ⟨hfailed, hsame⟩ | hdone
  · rw [hfailed]
    refine ⟨_, rfl, ?_⟩
    rwa [hsame, ← f.storage_setOut device target] at hleft
  · rw [hdone]
    exact ⟨_, rfl, hleft⟩

/-- An order is refused, or finds the device there already, or moves it, or waits for its write. -/
theorem reassign_outcome (f : Fleet) (uuid target : String) :
    (f.canFollow uuid target = false ∧ ∃ error, f.reassign uuid target = (.error (.failed error), f))
      ∨ (∃ device, f.definitions.has target = true ∧ f.reach? uuid = some device
        ∧ device.worksFor target = true
        ∧ f.reassign uuid target = (.ok (), { f with devices := f.devices.insert device }))
      ∨ (∃ device g, f.definitions.has target = true ∧ f.reach? uuid = some device
        ∧ device.worksFor target = false ∧ ¬ f.storage.Hangs uuid
        ∧ f.reassign uuid target = (.ok (), g) ∧ f.Moved device target g)
      ∨ f.setsOut uuid target = true ∧ f.storage.Hangs uuid
        ∧ ∃ g, f.reassign uuid target = (.error .stalled, g) := by
  unfold reassign canFollow setsOut
  cases hdefined : f.definitions.has target with
  | false => exact .inl ⟨rfl, _, rfl⟩
  | true =>
    cases hreach : f.reach? uuid with
    | none =>
      obtain ⟨error, hrecruit⟩ := recruit_of_not_reach? hreach
      rw [hrecruit]
      exact .inl ⟨rfl, error, rfl⟩
    | some device =>
      obtain rfl := uuid_of_device? (device?_of_reach? hreach)
      rw [recruit_of_reach? hreach]
      right
      cases hworks : device.worksFor target with
      | true =>
        refine .inl ⟨device, rfl, rfl, hworks, ?_⟩
        simp [hworks]
      | false =>
        right
        by_cases hhangs : f.storage.Hangs device.uuid
        · obtain ⟨g, hmove⟩ := move_of_hangs hhangs target
          refine .inr ⟨by simp [hworks], hhangs, g, ?_⟩
          simp [hworks, hmove]
        · obtain ⟨g, hmove, hmoved⟩ := moved_move hhangs target
          refine .inl ⟨device, g, rfl, rfl, hworks, hhangs, ?_, hmoved⟩
          simp [hworks, hmove]

/-! ## Changed devices -/

/-- A device works for another instance than before. -/
def Changes (f g : Fleet) (uuid : String) : Prop :=
  (g.device? uuid).map (·.instanceName) ≠ (f.device? uuid).map (·.instanceName)

/-- As many moves were counted as there are devices that moved. -/
def MovesOnce (f g : Fleet) (moved : String → Prop) : Prop :=
  ∃ uuids : List String, uuids.Nodup ∧ (∀ uuid, uuid ∈ uuids ↔ moved uuid) ∧
    g.metrics.reassignments = f.metrics.reassignments + uuids.length

theorem movesOnce_none (hsame : g.metrics.reassignments = f.metrics.reassignments)
    {moved : String → Prop} (hnone : ∀ uuid, ¬ moved uuid) : MovesOnce f g moved := by
  refine ⟨[], List.nodup_nil, fun uuid => ?_, hsame⟩
  exact iff_of_false List.not_mem_nil (hnone uuid)

theorem MovesOnce.congr {moved other : String → Prop} (hfg : MovesOnce f g moved)
    (hiff : ∀ uuid, other uuid ↔ moved uuid) : MovesOnce f g other := by
  obtain ⟨uuids, hnodup, hmem, hcount⟩ := hfg
  exact ⟨uuids, hnodup, fun uuid => (hmem uuid).trans (hiff uuid).symm, hcount⟩

/-- Moves are counted once over two stretches when no device moves in both. -/
theorem MovesOnce.append {moved later : String → Prop} (hfg : MovesOnce f g moved)
    (hgh : MovesOnce g h later) (hdisjoint : ∀ uuid, moved uuid → ¬ later uuid) :
    MovesOnce f h fun uuid => moved uuid ∨ later uuid := by
  obtain ⟨uuids, hnodup, hmem, hcount⟩ := hfg
  obtain ⟨others, hnodup', hmem', hcount'⟩ := hgh
  refine ⟨uuids ++ others, ?_, fun uuid => ?_, ?_⟩
  · refine List.nodup_append.2 ⟨hnodup, hnodup', fun uuid huuid other hother heq => ?_⟩
    subst heq
    exact hdisjoint uuid ((hmem uuid).1 huuid) ((hmem' uuid).1 hother)
  · rw [List.mem_append, hmem, hmem']
  · rw [hcount', hcount, List.length_append, Nat.add_assoc]

/-- A fleet after devices were sent to instances: each is known where it was sent, the same in all else,
    and its row is written if writes succeed. All other devices and rows are what they were. -/
structure Relocated (f : Fleet) (sent : Device → String → Prop) (g : Fleet) : Prop where
  there : ∀ d target, sent d target →
    g.devices.get? d.uuid = some (d.assign (some target))
      ∧ g.storage.tables.devices.get? d.uuid
        = if f.storage.isDown (.updateDevice d.uuid) then f.storage.tables.devices.get? d.uuid
          else some (d.assign (some target))
  others : ∀ uuid, (¬ ∃ d target, d.uuid = uuid ∧ sent d target) →
    g.devices.get? uuid = f.devices.get? uuid
      ∧ g.storage.tables.devices.get? uuid = f.storage.tables.devices.get? uuid

/-! ## Many orders -/

/-- A fleet after devices were ordered each to its goal. -/
structure Obeyed (f : Fleet) (goal : String → String) (uuids : List String) (g : Fleet) : Prop where
  aside : f.Aside g
  get?_eq : ∀ uuid, g.devices.get? uuid =
    if uuid ∈ uuids ∧ f.canFollow uuid (goal uuid) = true then
      (f.reach? uuid).map (·.assign (some (goal uuid)))
    else f.devices.get? uuid
  stored_eq : ∀ uuid, g.storage.tables.devices.get? uuid =
    if f.storage.isDown (.updateDevice uuid) = false ∧ uuid ∈ uuids
        ∧ f.setsOut uuid (goal uuid) = true then
      (f.reach? uuid).map (·.assign (some (goal uuid)))
    else f.storage.tables.devices.get? uuid
  once : MovesOnce f g fun uuid => uuid ∈ uuids ∧ f.setsOut uuid (goal uuid) = true

variable {goal : String → String} {uuids others : List String}

theorem obeyed_nil (f : Fleet) (goal : String → String) : f.Obeyed goal [] f where
  aside := .refl f
  get?_eq uuid := by simp
  stored_eq uuid := by simp
  once := movesOnce_none rfl fun uuid hmoved => List.not_mem_nil hmoved.1

namespace Obeyed

/-- A device whose order is not followed stays as it is. -/
theorem get?_of_idle (hfg : f.Obeyed goal uuids g) {uuid : String}
    (hidle : ¬ (uuid ∈ uuids ∧ f.canFollow uuid (goal uuid) = true)) :
    g.devices.get? uuid = f.devices.get? uuid
      ∧ g.storage.tables.devices.get? uuid = f.storage.tables.devices.get? uuid := by
  rw [hfg.get?_eq, hfg.stored_eq, if_neg hidle,
    if_neg fun hgoes => hidle ⟨hgoes.2.1, canFollow_of_setsOut hgoes.2.2⟩]
  exact ⟨rfl, rfl⟩

/-- A device that was ordered to its goal is there, if the order could be followed. -/
theorem reach?_eq (hfg : f.Obeyed goal uuids g) (uuid : String) :
    g.reach? uuid =
      if uuid ∈ uuids ∧ f.canFollow uuid (goal uuid) = true then
        (f.reach? uuid).map (·.assign (some (goal uuid)))
      else f.reach? uuid := by
  by_cases hordered : uuid ∈ uuids ∧ f.canFollow uuid (goal uuid) = true
  · obtain ⟨device, hreach⟩ := Option.isSome_iff_exists.1 (Bool.and_eq_true_iff.1 hordered.2).2
    rw [reach?, hfg.get?_eq, if_pos hordered, if_pos hordered, hreach, Option.map_some,
      Option.some_or]
  · obtain ⟨hknown, hstored⟩ := hfg.get?_of_idle hordered
    rw [if_neg hordered, reach?, hknown, hstored, hfg.aside.isDown_eq, ← reach?]

theorem canFollow_eq (hfg : f.Obeyed goal uuids g) (uuid target : String) :
    g.canFollow uuid target = f.canFollow uuid target := by
  unfold Fleet.canFollow
  rw [hfg.aside.definitions, hfg.reach?_eq]
  split
  · rw [Option.isSome_map]
  · rfl

/-- A device sets out once. -/
theorem setsOut_eq (hfg : f.Obeyed goal uuids g) (uuid : String) :
    g.setsOut uuid (goal uuid) = (decide (uuid ∉ uuids) && f.setsOut uuid (goal uuid)) := by
  unfold Fleet.setsOut
  rw [hfg.aside.definitions, hfg.reach?_eq]
  unfold Fleet.canFollow
  cases f.definitions.has (goal uuid) with
  | false => simp
  | true =>
    cases f.reach? uuid with
    | none => simp
    | some device =>
      by_cases hmem : uuid ∈ uuids
      · simp [hmem, Device.assign, Device.worksFor]
      · simp [hmem]

theorem append (hfg : f.Obeyed goal uuids g) (hgh : g.Obeyed goal others h) :
    f.Obeyed goal (uuids ++ others) h where
  aside := hfg.aside.trans hgh.aside
  get?_eq uuid := by
    rw [hgh.get?_eq, hfg.canFollow_eq, hfg.reach?_eq, hfg.get?_eq]
    by_cases hfollows : f.canFollow uuid (goal uuid) = true
    · by_cases hfirst : uuid ∈ uuids
      · by_cases hlater : uuid ∈ others
        · simp [hfollows, hfirst, hlater, Function.comp_def, Device.assign]
        · simp [hfollows, hfirst, hlater]
      · simp [hfollows, hfirst]
    · simp [hfollows]
  stored_eq uuid := by
    rw [hgh.stored_eq, hfg.aside.isDown_eq, hfg.reach?_eq, hfg.stored_eq, hfg.setsOut_eq]
    by_cases hfirst : uuid ∈ uuids
    · simp [hfirst]
    · simp [hfirst]
  once := by
    refine (hfg.once.append hgh.once ?_).congr fun uuid => ?_
    · rintro uuid ⟨hmem, -⟩ ⟨-, hsets⟩
      simp [hfg.setsOut_eq, hmem] at hsets
    · rw [hfg.setsOut_eq, List.mem_append]
      by_cases hfirst : uuid ∈ uuids
      · simp [hfirst]
      · simp [hfirst]

/-- The devices that set out are those that change their instance. -/
theorem changes_iff (hfg : f.Obeyed goal uuids g) (uuid : String) :
    f.Changes g uuid ↔ uuid ∈ uuids ∧ f.setsOut uuid (goal uuid) = true := by
  unfold Changes
  by_cases hordered : uuid ∈ uuids ∧ f.canFollow uuid (goal uuid) = true
  · obtain ⟨hmem, hfollows⟩ := hordered
    obtain ⟨hdefined, hsome⟩ := Bool.and_eq_true_iff.1 hfollows
    obtain ⟨device, hreach⟩ := Option.isSome_iff_exists.1 hsome
    have hthere : g.device? uuid = some (device.assign (some (goal uuid))) := by
      refine device?_of_known ?_
      rw [hfg.get?_eq, if_pos ⟨hmem, hfollows⟩, hreach, Option.map_some]
    have hsets : f.setsOut uuid (goal uuid) = true ↔ device.instanceName ≠ some (goal uuid) := by
      simp [setsOut, hdefined, hreach, Device.worksFor]
    rw [hthere, device?_of_reach? hreach, hsets, and_iff_right hmem, Option.map_some,
      Option.map_some, ne_eq, Option.some.injEq]
    exact ne_comm
  · have hsame : g.device? uuid = f.device? uuid := by
      rw [device?, (hfg.get?_of_idle hordered).1, (hfg.get?_of_idle hordered).2, ← device?]
    rw [hsame]
    exact iff_of_false (fun hne => hne rfl)
      fun hgoes => hordered ⟨hgoes.1, canFollow_of_setsOut hgoes.2⟩

/-- The devices that set out are sent, if no other order could be followed. -/
theorem relocated (hfg : f.Obeyed goal uuids g) {sent : Device → String → Prop}
    (hsent : ∀ d target, sent d target → f.reach? d.uuid = some d ∧ goal d.uuid = target
      ∧ d.uuid ∈ uuids ∧ f.setsOut d.uuid target = true)
    (hall : ∀ uuid ∈ uuids, f.canFollow uuid (goal uuid) = true →
      ∃ d target, d.uuid = uuid ∧ sent d target) :
    f.Relocated sent g where
  there d target hd := by
    obtain ⟨hreach, rfl, hmem, hsets⟩ := hsent d target hd
    rw [hfg.get?_eq, hfg.stored_eq, if_pos ⟨hmem, canFollow_of_setsOut hsets⟩, hreach]
    refine ⟨rfl, ?_⟩
    cases hdown : f.storage.isDown (.updateDevice d.uuid) with
    | true => rw [if_neg fun hwrites => Bool.noConfusion hwrites.1, if_pos rfl]
    | false =>
      rw [if_pos ⟨rfl, hmem, hsets⟩, if_neg Bool.false_ne_true]
      rfl
  others uuid hnot := by
    refine hfg.get?_of_idle fun hfollows => hnot ?_
    exact hall uuid hfollows.1 hfollows.2

theorem movesOnce (hfg : f.Obeyed goal uuids g) : MovesOnce f g (f.Changes g) :=
  hfg.once.congr hfg.changes_iff

/-- How often a device was ordered, and in which turn, does not matter. -/
theorem of_mem_iff (hfg : f.Obeyed goal uuids g) (hiff : ∀ uuid, uuid ∈ uuids ↔ uuid ∈ others) :
    f.Obeyed goal others g where
  aside := hfg.aside
  get?_eq uuid := by
    rw [hfg.get?_eq]
    simp only [hiff]
  stored_eq uuid := by
    rw [hfg.stored_eq]
    simp only [hiff]
  once := hfg.once.congr fun uuid => by rw [hiff]

/-- Whether triggers are counted does not matter. -/
theorem of_metrics {metrics : Metrics} (hsame : metrics.reassignments = f.metrics.reassignments)
    (hfg : ({ f with metrics } : Fleet).Obeyed goal uuids g) : f.Obeyed goal uuids g where
  aside := ((Aside.refl f).withMetrics metrics).trans hfg.aside
  get?_eq := hfg.get?_eq
  stored_eq := hfg.stored_eq
  once := by
    obtain ⟨moved, hnodup, hmem, hcount⟩ := hfg.once
    exact ⟨moved, hnodup, hmem, by rw [hcount, hsame]⟩

end Obeyed

/-- An order that is not followed leaves all as it was. -/
theorem obeyed_of_not_canFollow {uuid : String} (hnot : f.canFollow uuid (goal uuid) = false) :
    f.Obeyed goal [uuid] f := by
  have hidle : ∀ other, ¬ (other ∈ [uuid] ∧ f.canFollow other (goal other) = true) := by
    rintro other ⟨hmem, hfollows⟩
    obtain rfl := List.mem_singleton.1 hmem
    rw [hnot] at hfollows
    cases hfollows
  have hstays : ∀ other, ¬ (other ∈ [uuid] ∧ f.setsOut other (goal other) = true) :=
    fun other ⟨hmem, hsets⟩ => hidle other ⟨hmem, canFollow_of_setsOut hsets⟩
  refine ⟨.refl f, fun other => ?_, fun other => ?_, movesOnce_none rfl hstays⟩
  · rw [if_neg (hidle other)]
  · rw [if_neg fun hsets => hstays other hsets.2]

/-- A device that is there already is registered, and nothing else happens. -/
theorem obeyed_of_worksFor {device : Device} (hdefined : f.definitions.has (goal device.uuid) = true)
    (hreach : f.reach? device.uuid = some device)
    (hworks : device.worksFor (goal device.uuid) = true) :
    f.Obeyed goal [device.uuid] { f with devices := f.devices.insert device } := by
  have hfollows : f.canFollow device.uuid (goal device.uuid) = true := by
    simp [canFollow, hdefined, hreach]
  have hsets : f.setsOut device.uuid (goal device.uuid) = false := by
    simp [setsOut, hreach, hworks]
  have hstays : ∀ other, ¬ (other ∈ [device.uuid] ∧ f.setsOut other (goal other) = true) := by
    rintro other ⟨hmem, hgoes⟩
    obtain rfl := List.mem_singleton.1 hmem
    rw [hsets] at hgoes
    cases hgoes
  refine ⟨⟨_, f.storage.tables.devices, f.jobs, f.metrics, rfl⟩, fun other => ?_, fun other => ?_,
    movesOnce_none rfl hstays⟩
  · have hkey : key device = device.uuid := rfl
    rw [Table.get?_insert, hkey]
    by_cases hsame : device.uuid = other
    · subst hsame
      simp [hfollows, hreach, Device.assign_of_worksFor hworks]
    · simp [hsame, Ne.symm hsame]
  · rw [if_neg fun hgoes => hstays other hgoes.2]

/-- A device that sets out is registered at its goal, and its move is counted. -/
theorem obeyed_of_moved {device : Device} (hdefined : f.definitions.has (goal device.uuid) = true)
    (hreach : f.reach? device.uuid = some device)
    (hworks : device.worksFor (goal device.uuid) = false)
    (hmoved : f.Moved device (goal device.uuid) g) : f.Obeyed goal [device.uuid] g := by
  have hsets : f.setsOut device.uuid (goal device.uuid) = true := by
    simp [setsOut, hdefined, hreach, hworks]
  refine ⟨hmoved.aside, fun other => ?_, fun other => ?_,
    [device.uuid], by simp, fun other => ?_, ?_⟩
  · have hkey : key (device.assign (some (goal device.uuid))) = device.uuid := rfl
    rw [hmoved.devices, Table.get?_insert, hkey]
    by_cases hsame : device.uuid = other
    · subst hsame
      simp [canFollow_of_setsOut hsets, hreach]
    · simp [hsame, Ne.symm hsame]
  · have huuid : (device.assign (some (goal device.uuid))).uuid = device.uuid := rfl
    rw [hmoved.storage, Storage.get?_written, huuid]
    by_cases hsame : device.uuid = other
    · subst hsame
      simp [hsets, hreach]
    · simp [hsame, Ne.symm hsame]
  · constructor
    · intro hmem
      obtain rfl := List.mem_singleton.1 hmem
      exact ⟨hmem, hsets⟩
    · exact And.left
  · rw [hmoved.metrics]
    rfl

/-- An order that comes to an end answers whether it could be followed. -/
theorem obeyed_reassign (f : Fleet) (goal : String → String) (uuid : String) :
    (f.setsOut uuid (goal uuid) = true ∧ f.storage.Hangs uuid
        ∧ ∃ g, f.reassign uuid (goal uuid) = (.error .stalled, g))
      ∨ (f.setsOut uuid (goal uuid) = true → ¬ f.storage.Hangs uuid)
        ∧ ∃ g, f.Obeyed goal [uuid] g
          ∧ (f.canFollow uuid (goal uuid) = true ∧ f.reassign uuid (goal uuid) = (.ok (), g)
            ∨ f.canFollow uuid (goal uuid) = false
              ∧ ∃ error, f.reassign uuid (goal uuid) = (.error (.failed error), g)) := by
  obtain ⟨hnot, error, heq⟩ | ⟨device, hdefined, hreach, hworks, heq⟩
    | ⟨device, g, hdefined, hreach, hworks, hends, heq, hmoved⟩ | ⟨hsets, hhangs, heq⟩ :=
    f.reassign_outcome uuid (goal uuid)
  · refine .inr ⟨fun hsets => ?_, f, obeyed_of_not_canFollow hnot, .inr ⟨hnot, error, heq⟩⟩
    rw [canFollow_of_setsOut hsets] at hnot
    cases hnot
  · obtain rfl := uuid_of_device? (device?_of_reach? hreach)
    refine .inr ⟨fun hsets => ?_, _, obeyed_of_worksFor hdefined hreach hworks, .inl ⟨?_, heq⟩⟩
    · simp [setsOut, hreach, hworks] at hsets
    · simp [canFollow, hdefined, hreach]
  · obtain rfl := uuid_of_device? (device?_of_reach? hreach)
    refine .inr ⟨fun _ => hends, g, obeyed_of_moved hdefined hreach hworks hmoved, .inl ⟨?_, heq⟩⟩
    simp [canFollow, hdefined, hreach]
  · exact .inl ⟨hsets, hhangs, heq⟩

/-- A list of orders waits for good for a write of a device that sets out, or it answers how many orders
    could be followed. -/
theorem moveAll_outcome (f : Fleet) (trigger : Option Trigger) (goal : String → String)
    (uuids : List String) :
    ((∃ uuid ∈ uuids, f.setsOut uuid (goal uuid) = true ∧ f.storage.Hangs uuid)
        ∧ ∃ g, f.moveAll trigger (uuids.map fun uuid => ⟨uuid, goal uuid⟩) = (.error .stalled, g))
      ∨ (∀ uuid ∈ uuids, f.setsOut uuid (goal uuid) = true → ¬ f.storage.Hangs uuid)
        ∧ ∃ g, f.moveAll trigger (uuids.map fun uuid => ⟨uuid, goal uuid⟩)
            = (.ok (uuids.countP fun uuid => f.canFollow uuid (goal uuid)), g)
          ∧ f.Obeyed goal uuids g := by
  induction uuids generalizing f with
  | nil => exact .inr ⟨by simp, f, rfl, obeyed_nil f goal⟩
  | cons uuid rest ih =>
    obtain ⟨metrics, hcounted, hsame⟩ : ∃ metrics, trigger.elim f f.countTrigger = { f with metrics }
        ∧ metrics.reassignments = f.metrics.reassignments := by
      cases trigger with
      | none => exact ⟨f.metrics, rfl, rfl⟩
      | some trigger => exact ⟨f.metrics.countTrigger trigger, rfl, rfl⟩
    rw [List.map_cons, moveAll, hcounted, List.countP_cons]
    obtain ⟨hsets, hhangs, g, heq⟩ | ⟨hends, g, hobeyed, hanswer⟩ :=
      obeyed_reassign { f with metrics } goal uuid
    · refine .inl ⟨⟨uuid, List.mem_cons_self, hsets, hhangs⟩, g, ?_⟩
      rw [heq]
    have hobeyed : f.Obeyed goal [uuid] g := hobeyed.of_metrics hsame
    -- what is asked of the later devices in the next state is what was asked of them before
    have hmeets : ∀ other, g.setsOut other (goal other) = true → f.setsOut other (goal other) = true := by
      intro other hsets
      rw [hobeyed.setsOut_eq] at hsets
      exact (Bool.and_eq_true_iff.1 hsets).2
    obtain ⟨⟨other, hmem, hsets, hhangs⟩, h, hstalls⟩ | ⟨hrest, h, heq, hlater⟩ := ih g
    · refine .inl ⟨⟨other, List.mem_cons_of_mem uuid hmem, hmeets other hsets,
        (hobeyed.aside.hangs_iff other).1 hhangs⟩, h, ?_⟩
      rcases hanswer with ⟨-, hok⟩ | ⟨-, error, hfailed⟩
      · rw [hok]
        dsimp only
        rw [hstalls]
      · rw [hfailed]
        dsimp only
        rw [hstalls]
    · refine .inr ⟨fun other hmem hsets hhangs => ?_, h, ?_, hobeyed.append hlater⟩
      · by_cases hfirst : other = uuid
        · subst hfirst
          exact hends hsets hhangs
        · have hagain : g.setsOut other (goal other) = true := by
            simp [hobeyed.setsOut_eq, hfirst, hsets]
          exact hrest other ((List.mem_cons.1 hmem).resolve_left hfirst) hagain
            ((hobeyed.aside.hangs_iff other).2 hhangs)
      · simp only [hobeyed.canFollow_eq] at heq
        rcases hanswer with ⟨hfollows, hok⟩ | ⟨hnot, error, hfailed⟩
        · have hfollows : f.canFollow uuid (goal uuid) = true := hfollows
          rw [hok]
          dsimp only
          rw [heq, if_pos hfollows]
        · have hnot : f.canFollow uuid (goal uuid) = false := hnot
          rw [hfailed]
          dsimp only
          rw [heq, hnot]
          rfl

end Fleet

end ScanFleet
