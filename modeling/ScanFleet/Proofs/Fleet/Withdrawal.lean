import ScanFleet.Proofs.Fleet.Lineage
import ScanFleet.Proofs.Fleet.Mirror

set_option autoImplicit false

/-! # Devices of a withdrawn instance

When an instance is replaced or removed, its devices go over to another instance, or to none, and
their rows are written (`Fleet.HandsOver`). Every other device and every other row stays as it is. A
replacement does so before it builds the new job, and a job that cannot be built does not take it back
(`Fleet.GivesWay`). -/

namespace ScanFleet

/-- A stopped job has work for nobody, and neither has a broken one, which does not take the order. -/
theorem Job.handOut_stop (j : Job) (account : Option String) (time : Instant) :
    (j.stop.handOut account time).1 = some { task := .idle } := by
  have hidle : j.stop.broken = true ∨ j.stop.stopped = true := by
    cases hbroken : j.broken with
    | true => exact .inl ((j.broken_order Patrol.stop).trans hbroken)
    | false => exact .inr (Job.stopped_stop hbroken)
  rw [Job.handOut, if_pos hidle]

/-- Filing rows changes the rows of devices and nothing else. -/
theorem Storage.fileAll_eq (s : Storage) (rows : List Device) :
    s.fileAll rows = { s with
      tables := { s.tables with devices := rows.foldl Table.insert s.tables.devices } } := by
  induction rows generalizing s with
  | nil => rfl
  | cons d rest ih => exact ih (s.file d)

namespace Fleet

/-- The devices of an instance work for another, or for none, and all other devices are as they were.
    Of the rows in storage those of the devices that changed were written, and no others. -/
structure HandsOver (f : Fleet) (name : String) (other : Option String) (g : Fleet) : Prop where
  moved : ∀ uuid device, f.devices.get? uuid = some device → device.instanceName = some name →
    g.devices.get? uuid = some (device.assign other)
  kept : ∀ uuid, f.post? uuid ≠ some name → g.devices.get? uuid = f.devices.get? uuid
  written : other ≠ some name → ∀ uuid, f.post? uuid = some name →
    g.storage.tables.devices.get? uuid = g.devices.get? uuid
  unwritten : ∀ uuid, other = some name ∨ f.post? uuid ≠ some name →
    g.storage.tables.devices.get? uuid = f.storage.tables.devices.get? uuid

/-- A job was stopped and retired. It has no work for anybody, and tells that it is stopped unless it
    is broken. -/
structure Retires (f : Fleet) (job : Job) : Prop where
  retired : job.stop ∈ f.retired
  idle : ∀ account time, (job.stop.handOut account time).1 = some { task := .idle }
  stopped : job.broken = false → job.stop.stopped = true

variable {f g : Fleet} {name : String} {other : Option String}

theorem retires_of_mem {job : Job} (h : job.stop ∈ f.retired) : f.Retires job :=
  ⟨h, job.handOut_stop, Job.stopped_stop⟩

theorem exists_device_of_post {uuid : String} (h : f.post? uuid = some name) :
    ∃ device, f.devices.get? uuid = some device ∧ device.instanceName = some name :=
  Option.bind_eq_some_iff.1 h

/-- The rows of the devices of an instance have different keys. -/
theorem pairwise_key_shifted (f : Fleet) (name : String) (other : Option String) :
    (f.shifted name other).Pairwise fun a b => key a ≠ key b := by
  rw [shifted]
  split
  · exact .nil
  · exact List.pairwise_map.2 (f.devices.pairwise_key_ne.sublist List.filter_sublist)

/-- Withdrawing an instance, with the rows of its devices written, hands its devices over. -/
theorem handsOver_of_withdraw (hdevices : g.devices = (f.withdraw name other).devices)
    (hstorage : g.storage.tables.devices
      = (f.storage.fileAll (f.shifted name other)).tables.devices) : f.HandsOver name other g := by
  have hshift (uuid : String) :
      g.devices.get? uuid = (f.devices.get? uuid).map (Device.shift name other) := by
    rw [hdevices]
    exact f.devices.get?_map _ (Device.key_shift name other) uuid
  have hmoved : ∀ uuid device, f.devices.get? uuid = some device →
      device.instanceName = some name → g.devices.get? uuid = some (device.assign other) := by
    intro uuid device hget hname
    rw [hshift, hget, Option.map_some, Device.shift, Device.worksFor, hname, beq_self_eq_true,
      if_pos rfl]
  refine ⟨hmoved, fun uuid hpost => ?_, fun hother uuid hpost => ?_, fun uuid hstays => ?_⟩
  · rw [hdevices]
    exact get?_withdraw_of_ne hpost
  · obtain ⟨device, hget, hname⟩ := exists_device_of_post hpost
    have hrow : device.assign other ∈ f.shifted name other := by
      rw [shifted, if_neg hother]
      obtain rfl : device.uuid = uuid := Table.key_of_get? hget
      exact List.mem_map_of_mem (mem_crew_iff.2 ⟨hget, hname⟩)
    have hkey : key (device.assign other) = uuid :=
      (device.key_assign other).trans (Table.key_of_get? hget)
    -- no two of the rows are of one device, so that none is written over
    rw [hmoved uuid device hget hname, hstorage, Storage.fileAll_eq, ← hkey]
    exact Table.get?_foldl_insert_of_mem (f.pairwise_key_shifted name other) hrow _
  · rw [hstorage, Storage.fileAll_eq]
    refine Table.get?_foldl_insert_of_not (fun row hrow hkey => ?_) _
    rw [shifted] at hrow
    split at hrow
    · cases hrow
    · rename_i hother
      obtain ⟨member, hmember, rfl⟩ := List.mem_map.1 hrow
      obtain rfl : member.uuid = uuid := hkey
      exact hstays.resolve_left hother (exists_mem_crew_iff.1 ⟨member, hmember, rfl⟩)

/-! ## Replacements -/

/-- The live job of a definition was built from it at an instant, and attached to it are the devices
    that work for it. -/
def ServedAnew (f : Fleet) (definition : Instance) (now : Instant) : Prop :=
  ∃ plan job, plan.definition = definition.withQueueLimit f.queueLimit
    ∧ f.roster.build plan now = .ok job
    ∧ f.jobs.get? definition.name = some (job.attachAll (f.crew definition.name))
    ∧ ∀ uuid, (job.attachAll (f.crew definition.name)).patrol.crew.has uuid = true
      ↔ f.post? uuid = some definition.name

/-- The job of a definition was made live, unless the answer is that it could not be built. Then the
    jobs are those of before. -/
structure Installs (f : Fleet) (definition : Instance) (now : Instant) (answer : Except Halt Unit)
    (g : Fleet) : Prop where
  devices : g.devices = f.devices
  storage : g.storage = f.storage
  definitions : g.definitions = f.definitions
  retired : ∀ job ∈ f.retired, job ∈ g.retired
  others : ∀ k, k ≠ definition.name → g.jobs.get? k = f.jobs.get? k
  built : answer = .ok () → g.ServedAnew definition now
  unbuilt : answer ≠ .ok () → g.jobs = f.jobs

theorem installs_install (f : Fleet) (definition : Instance) (now : Instant) :
    f.Installs definition now (f.install definition now).1 (f.install definition now).2 := by
  obtain ⟨job, lookups, hbuild, heq⟩ | ⟨halt, lookups, metrics, -, heq⟩ :=
    f.install_outcome definition now
  · rw [heq]
    obtain ⟨hname, hnew⟩ := build_ok hbuild
    obtain ⟨plan, hplan, hbuilt⟩ := plan_of_build hbuild
    refine ⟨rfl, rfl, rfl, fun former hformer => ?_, fun k hk => ?_, fun _ => ?_,
      fun hnot => absurd rfl hnot⟩
    · exact List.mem_append_left _ hformer
    · exact (get?_register _ job k).trans (if_neg (by rw [hname]; exact Ne.symm hk))
    · have hlive : (({ f with lookups } : Fleet).register job).jobs.get? definition.name
          = some (job.attachAll (f.crew definition.name)) := by
        rw [get?_register, hname, if_pos rfl]
        rfl
      have hagrees := agreesOn_register (f := { f with lookups }) hnew
      rw [hname] at hagrees
      have hdefinition : plan.definition = definition.withQueueLimit f.queueLimit := plan_ok hplan
      exact ⟨plan, job, hdefinition, hbuilt, hlive, fun uuid =>
        (hagrees _ hlive uuid).trans exists_mem_crew_iff⟩
  · rw [heq]
    exact ⟨rfl, rfl, rfl, fun _ h => h, fun _ _ => rfl, nofun, fun _ => rfl⟩

/-- An instance has given way to a definition, with the answer of the replacement. -/
structure GivesWay (f : Fleet) (old : String) (definition : Instance) (now : Instant)
    (answer : Except Halt Unit) (g : Fleet) : Prop where
  devices : f.HandsOver old (some definition.name) g
  definitions : g.definitions = (f.definitions.erase old).insert definition
  former : ∀ job, f.jobs.get? old = some job → g.Retires job
  /-- Only the job that was built anew can be live under the name. -/
  gone : g.jobs.has old = true → answer = .ok () ∧ old = definition.name
  others : ∀ k, k ≠ old → k ≠ definition.name → g.jobs.get? k = f.jobs.get? k
  built : answer = .ok () → g.ServedAnew definition now
  /-- A job that was live under the name of the definition goes on when the new one cannot be built. -/
  unbuilt : answer ≠ .ok () → definition.name ≠ old →
    g.jobs.get? definition.name = f.jobs.get? definition.name

/-- When every write is carried out, a replacement goes on to make a job live. -/
theorem replaceInstance_eq (hwrites : f.storage.Writable) (definition : Instance) (old : String)
    (now : Instant) :
    ∃ lookups, f.replaceInstance definition old now = ({ f.replaced definition old with
      lookups
      storage := f.storage.fileAll (f.shifted old (some definition.name))
      retired := f.retired ++ ((f.jobs.get? old).map Job.stop).toList } :
        Fleet).install definition now := by
  unfold replaceInstance
  dsimp only [withdraw]
  rw [hwrites.writeAll_eq]
  exact ⟨_, rfl⟩

/-- Replacing an instance while writes are carried out: its devices go over to the definition that
    takes its place, with their rows, and its job is stopped, whether the new job can be built or not.
    Other instances stay as they are, apart from one whose name the definition has. -/
theorem givesWay_replaceInstance (hwrites : f.storage.Writable) (definition : Instance)
    (old : String) (now : Instant) :
    f.GivesWay old definition now (f.replaceInstance definition old now).1
      (f.replaceInstance definition old now).2 := by
  obtain ⟨lookups, heq⟩ := replaceInstance_eq hwrites definition old now
  rw [heq]
  -- the fleet before the new job is built; what it is like does not depend on the answer
  generalize hbase : ({ f.replaced definition old with
      lookups
      storage := f.storage.fileAll (f.shifted old (some definition.name))
      retired := f.retired ++ ((f.jobs.get? old).map Job.stop).toList } : Fleet) = base
  have hinstalls := base.installs_install definition now
  have hjobs (k : String) : base.jobs.get? k = if old = k then none else f.jobs.get? k := by
    rw [← hbase]
    exact f.jobs.get?_erase old k
  refine ⟨handsOver_of_withdraw ?_ ?_, ?_, fun job hjob => ?_, fun hlive => ?_, fun k hk hne => ?_,
    hinstalls.built, fun hnot hne => ?_⟩
  · rw [hinstalls.devices, ← hbase]
    rfl
  · rw [hinstalls.storage, ← hbase]
  · rw [hinstalls.definitions, ← hbase]
    rfl
  · refine retires_of_mem (hinstalls.retired job.stop ?_)
    rw [← hbase, hjob]
    exact List.mem_append_right _ (List.mem_singleton.2 rfl)
  · -- no job is live under the old name before the new one is
    have hnone : base.jobs.get? old = none := by rw [hjobs, if_pos rfl]
    refine ⟨Classical.byContradiction fun hnot => ?_, Classical.byContradiction fun hne => ?_⟩
    · rw [Table.has, hinstalls.unbuilt hnot, hnone] at hlive
      cases hlive
    · rw [Table.has, hinstalls.others old hne, hnone] at hlive
      cases hlive
  · rw [hinstalls.others k hne, hjobs, if_neg (Ne.symm hk)]
  · rw [hinstalls.unbuilt hnot, hjobs, if_neg (Ne.symm hne)]

/-- Two started circles with one device each. -/
def startedCircles : Fleet :=
  (start { storage := { tables := .ofSeed {
    instances := [⟨"A", .circlePokemon, { geofences := ["loop"] }⟩,
      ⟨"B", .circlePokemon, { geofences := ["loop"] }⟩]
    devices := [{ uuid := "dev-1", instanceName := some "A" },
      { uuid := "dev-2", instanceName := some "B" }]
    geofences := [⟨"loop", .circle,
      .list [.object [("lat", .int 0), ("lon", .int 0)],
        .object [("lat", .int 0), ("lon", .int 1)]]⟩] } } } (.ofSeconds 0)).2

/-- The first circle gives way to a definition with the name of the second one. -/
theorem givesWay_startedCircles :
    let definition : Instance := ⟨"B", .circleRaid, { geofences := ["loop"] }⟩
    let after := (startedCircles.replaceInstance definition "A" (.ofSeconds 0)).2
    startedCircles.storage.Writable ∧ startedCircles.GivesWay "A" definition (.ofSeconds 0)
      (startedCircles.replaceInstance definition "A" (.ofSeconds 0)).1 after :=
  ⟨⟨fun _ => rfl, rfl⟩, givesWay_replaceInstance ⟨fun _ => rfl, rfl⟩ _ _ _⟩

example : ((startedCircles.replaceInstance ⟨"B", .circleRaid, { geofences := ["loop"] }⟩ "A"
    (.ofSeconds 0)).2.crew "B").map (·.uuid) = ["dev-1", "dev-2"] := by decide +kernel

/-! ## Removals -/

/-- When every write is carried out, the removal of a known instance releases its devices, with their
    rows, and stops its job. -/
theorem removeInstance_eq (hwrites : f.storage.Writable)
    (hknown : f.definitions.has name = true ∨ f.jobs.has name = true) :
    ∃ metrics, f.removeInstance name = (.ok (), { f.withdraw name none with
      metrics
      storage := f.storage.fileAll (f.shifted name none)
      retired := f.retired ++ ((f.jobs.get? name).map Job.stop).toList }) := by
  have hunrefused : ¬ (!f.definitions.has name && !f.jobs.has name) = true := by
    rcases hknown with hdefined | hlive
    · simp [hdefined]
    · simp [hlive]
  unfold removeInstance
  dsimp only [withdraw]
  rw [if_neg hunrefused, hwrites.writeAll_eq]
  exact ⟨_, rfl⟩

end Fleet

end ScanFleet
