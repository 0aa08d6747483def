import ScanFleet.Proofs.Fleet.Boot

set_option autoImplicit false

/-! # What a start comes to

Only what is stored tells what a fleet without jobs comes to when it starts (`Fleet.Started`). The run
in which the builds take turns as wholes, in the order of the instances, is the one that `Fleet.start`
computes; by `Boot.Sound.unique` every other complete run ends in the same state. -/

namespace ScanFleet

namespace Fleet

/-- A fleet before it starts: it knows no device, no definition and no job, storage can be read, and
    nothing is remembered but what is stored. -/
structure Idle (f : Fleet) : Prop where
  definitions : f.definitions = .empty
  jobs : f.jobs = .empty
  devices : f.devices = .empty
  up : f.storage.down = []
  faithful : f.lookups.Faithful f.storage.tables

/-- What a fleet has come to when it has started. Every stored instance is defined. A job is live for
    each one that can be built from what is stored, with the stored devices that work for it. The others
    are counted as failures. -/
structure Started (f : Fleet) (now : Instant) (g : Fleet) : Prop where
  definitions : g.definitions = f.storage.tables.instances
  devices : g.devices = f.storage.tables.devices
  live : ∀ name job, g.jobs.get? name = some job ↔ ∃ definition plan bare,
    f.storage.tables.instances.get? name = some definition ∧ f.Equips definition plan
      ∧ f.roster.build plan now = .ok bare ∧ job = bare.attachAll (g.crew name)
  crews : ∀ name job, g.jobs.get? name = some job → ∀ uuid, job.patrol.crew.has uuid = true
    ↔ ∃ device, f.storage.tables.devices.get? uuid = some device ∧ device.instanceName = some name
  failures : g.metrics.buildFailures + g.jobs.size
    = f.metrics.buildFailures + f.storage.tables.instances.size

variable {f : Fleet} {now : Instant}

/-- The fleet with all that is stored, before the first build. -/
def stocked (f : Fleet) : Fleet :=
  f.loaded f.storage.tables.devices.rows f.storage.tables.instances.rows

/-- The builds of all stored instances, before the first step. -/
def outset (f : Fleet) : Boot where
  fleet := f.stocked
  tasks := f.storage.tables.instances.rows.map fun d => ⟨d, .opening d⟩

theorem Idle.devices_stored (h : f.Idle) :
    f.storage.devices = .ok f.storage.tables.devices.rows := by
  simp [Storage.devices, Storage.read, Storage.isDown, h.up]

theorem Idle.instances_stored (h : f.Idle) :
    f.storage.instances = .ok f.storage.tables.instances.rows := by
  simp [Storage.instances, Storage.read, Storage.isDown, h.up]

theorem Idle.boot_eq (h : f.Idle) : f.boot = .ok f.outset := by
  rw [boot, h.devices_stored, h.instances_stored]
  rfl

theorem Idle.start_eq (h : f.Idle) (now : Instant) : f.start now
    = (.ok (f.stocked.installAll now f.storage.tables.instances.rows).1,
      (f.stocked.installAll now f.storage.tables.instances.rows).2.refreshSize) := by
  rw [start, h.devices_stored, h.instances_stored]
  rfl

theorem Idle.definitions_stocked (h : f.Idle) :
    f.stocked.definitions = f.storage.tables.instances := by
  show f.storage.tables.instances.rows.foldl Table.insert f.definitions = _
  rw [h.definitions, Table.foldl_insert_rows]

theorem Idle.devices_stocked (h : f.Idle) : f.stocked.devices = f.storage.tables.devices := by
  show f.storage.tables.devices.rows.foldl Table.insert f.devices = _
  rw [h.devices, Table.foldl_insert_rows]

theorem Idle.vacant_stocked (h : f.Idle) : f.stocked.Vacant f.storage.tables.instances.rows := by
  refine ⟨f.storage.tables.instances.pairwise_key_ne, fun d hd => ?_⟩
  show f.jobs.get? d.name = none
  rw [h.jobs, Table.get?_empty]

theorem equips_stocked_iff {definition : Instance} {plan : JobPlan} :
    f.stocked.Equips definition plan ↔ f.Equips definition plan :=
  ⟨fun h => ⟨h.runs, h.area, h.ivList, h.offset⟩, fun h => ⟨h.runs, h.area, h.ivList, h.offset⟩⟩

theorem Idle.sound_outset (h : f.Idle) (now : Instant) :
    Boot.Sound f.stocked now f.storage.tables.instances.rows f.outset where
  fleet := rfl
  built := rfl
  lots := by
    rw [outset, List.map_map]
    exact .of_eq (List.map_id _)
  stages := by
    intro task htask
    obtain ⟨d, -, rfl⟩ := List.mem_map.1 htask
    exact ⟨BuildStage.sound_opening d, rfl⟩
  zones := rfl
  faithful := h.faithful
  rows := by
    intro row
    refine or_congr Iff.rfl ?_
    constructor
    · rintro ⟨task, htask, hwants⟩
      obtain ⟨d, hd, rfl⟩ := List.mem_map.1 htask
      exact ⟨d, hd, hwants⟩
    · rintro ⟨d, hd, hwants⟩
      exact ⟨_, List.mem_map.2 ⟨d, hd, rfl⟩, hwants⟩

/-- The stored devices that work for an instance are the crew of its live job. -/
theorem has_crew_attachAll_crew {g : Fleet} {bare : Job} (hnew : bare.New) (name uuid : String) :
    (bare.attachAll (g.crew name)).patrol.crew.has uuid = true
      ↔ ∃ device, g.devices.get? uuid = some device ∧ device.instanceName = some name := by
  have hnone : ¬ bare.patrol.crew.has uuid = true := by
    rw [hnew.unmanned]
    exact Bool.false_ne_true
  rw [Job.has_crew_attachAll hnew.unbroken, or_iff_right hnone, exists_mem_crew_iff, post?,
    Option.bind_eq_some_iff]

section Complete

variable (h : f.Idle) {b : Boot}
  (hb : Boot.Sound f.stocked now f.storage.tables.instances.rows b) (hnone : b.tasks = [])

include h hb hnone

/-- The builds that were taken in have changed the live jobs and the count of failures. -/
theorem Idle.fleet_complete : f.stocked.Vacant b.taken ∧ b.fleet = { f.stocked with
    lookups := b.fleet.lookups
    jobs := (f.stocked.settleAll (f.stocked.verdict now) b.taken).jobs
    metrics := { f.metrics with
      buildFailures := f.metrics.buildFailures
        + b.taken.countP fun d => !(f.stocked.verdict now d).isOk } } := by
  have hvacant := h.vacant_stocked.perm (hb.taken_perm hnone).symm
  refine ⟨hvacant, ?_⟩
  have hsettled := settleAll_eq (names_verdict f.stocked now) hvacant
  exact hb.fleet.trans (congrArg (fun g : Fleet => { g with lookups := b.fleet.lookups }) hsettled)

theorem Idle.devices_complete : b.fleet.devices = f.storage.tables.devices := by
  rw [(h.fleet_complete hb hnone).2]
  exact h.devices_stocked

/-- The number of live jobs is the number of definitions that were built. -/
theorem Idle.size_complete :
    b.fleet.jobs.size = b.taken.countP fun d => (f.stocked.verdict now d).isOk := by
  obtain ⟨hvacant, hfleet⟩ := h.fleet_complete hb hnone
  have hfree : f.stocked.jobs = .empty := h.jobs
  rw [hfleet]
  dsimp only
  rw [size_settleAll (names_verdict f.stocked now) hvacant, hfree]
  exact Nat.zero_add _

/-- The live jobs are those that are built from what is stored, each with its crew. -/
theorem Idle.live_complete (name : String) (job : Job) : b.fleet.jobs.get? name = some job
    ↔ ∃ definition plan bare, f.storage.tables.instances.get? name = some definition
      ∧ f.Equips definition plan ∧ f.roster.build plan now = .ok bare
      ∧ job = bare.attachAll (b.fleet.crew name) := by
  obtain ⟨hvacant, hfleet⟩ := h.fleet_complete hb hnone
  have htaken := hb.taken_perm hnone
  have hjobs : b.fleet.jobs = (f.stocked.settleAll (f.stocked.verdict now) b.taken).jobs := by
    rw [hfleet]
  have hfree : f.stocked.jobs = .empty := h.jobs
  have hcrew : b.fleet.crew name = f.stocked.crew name := by
    rw [crew, crew, h.devices_complete hb hnone, h.devices_stocked]
  rw [hjobs, get?_settleAll (names_verdict f.stocked now) hvacant, hfree, Table.get?_empty, hcrew]
  constructor
  · rintro (habsurd | ⟨d, hd, bare, rfl, hverdict, rfl⟩)
    · cases habsurd
    · obtain ⟨plan, hplan, hbuild⟩ := BuildStage.verdict_ok_iff.1 hverdict
      exact ⟨d, plan, bare, Table.get?_of_mem (htaken.mem_iff.1 hd), equips_stocked_iff.1 hplan,
        hbuild, rfl⟩
  · rintro ⟨d, plan, bare, hget, hplan, hbuild, rfl⟩
    exact .inr ⟨d, htaken.mem_iff.2 (Table.mem_of_get? hget), bare, Table.key_of_get? hget,
      BuildStage.verdict_ok_iff.2 ⟨plan, equips_stocked_iff.2 hplan, hbuild⟩, rfl⟩

/-- Every stored instance has a live job or is counted as a failure. -/
theorem Idle.failures_complete : b.fleet.metrics.buildFailures + b.fleet.jobs.size
    = f.metrics.buildFailures + f.storage.tables.instances.size := by
  have hfailures : b.fleet.metrics.buildFailures = f.metrics.buildFailures
      + b.taken.countP fun d => !(f.stocked.verdict now d).isOk := by
    rw [(h.fleet_complete hb hnone).2]
  have hcount := b.taken.length_eq_countP_add_countP fun d => (f.stocked.verdict now d).isOk
  simp only [Bool.not_eq_true, Bool.decide_eq_false] at hcount
  have hlength : b.taken.length = f.storage.tables.instances.size :=
    (hb.taken_perm hnone).length_eq
  rw [hfailures, h.size_complete hb hnone, ← hlength, hcount]
  omega

/-- What every complete schedule comes to. -/
theorem Idle.started :
    f.Started now b.fleet.refreshSize ∧ b.built = b.fleet.jobs.size := by
  have hdevices := h.devices_complete hb hnone
  have hlive := h.live_complete hb hnone
  refine ⟨⟨?_, hdevices, hlive, fun name job hjob uuid => ?_, h.failures_complete hb hnone⟩,
    hb.built.trans (h.size_complete hb hnone).symm⟩
  · show b.fleet.definitions = f.storage.tables.instances
    rw [(h.fleet_complete hb hnone).2]
    exact h.definitions_stocked
  · obtain ⟨d, plan, bare, -, -, hbuild, rfl⟩ := (hlive name job).1 hjob
    obtain ⟨duty, rfl⟩ := BuilderRoster.build_ok hbuild
    refine (has_crew_attachAll_crew ⟨rfl, rfl⟩ name uuid).trans ?_
    rw [hdevices]

end Complete

/-- However the builds of a starting fleet take turns while the clock shows `now`, it comes to one and
    the same state, the one that `Fleet.start` tells. Every order is possible in which the builds are
    taken in. No schedule goes on for ever, and each can be brought to its end. -/
theorem boot_settles (h : f.Idle) (now : Instant) :
    ∃ b g, f.boot = .ok b ∧ f.start now = (.ok g.jobs.size, g) ∧ f.Started now g
      ∧ (∀ schedule, (b.run now schedule).tasks = [] →
          (b.run now schedule).fleet.refreshSize = g ∧ (b.run now schedule).built = g.jobs.size)
      ∧ (∀ order, order.Perm f.storage.tables.instances.rows → ∃ schedule,
          (b.run now schedule).tasks = [] ∧ (b.run now schedule).taken = order)
      ∧ (∃ bound, ∀ schedule, b.Busy now schedule → schedule.length ≤ bound)
      ∧ ∀ schedule, ∃ more,
          (b.run now schedule).Busy now more ∧ (b.run now (schedule ++ more)).tasks = [] := by
  have hsound := h.sound_outset now
  have hup : f.stocked.storage.down = [] := h.up
  have horder (order : List Instance) (hperm : order.Perm f.storage.tables.instances.rows) :=
    Boot.exists_run_order (b := f.outset) now rfl hperm
  obtain ⟨inTurn, hinTurn⟩ := horder _ (.refl _)
  have hend : (f.outset.run now inTurn).tasks = [] := by rw [hinTurn]
  have hruns := hsound.run hup inTurn
  obtain ⟨hstarted, hbuilt⟩ := h.started hruns hend
  refine ⟨f.outset, (f.outset.run now inTurn).fleet.refreshSize, h.boot_eq, ?_, hstarted,
    fun schedule hnone => ?_, fun order hperm => ?_, ⟨_, fun schedule => hsound.length_le hup⟩,
    fun schedule => ?_⟩
  · have hfleet : (f.outset.run now inTurn).fleet
        = (f.stocked.installAll now f.storage.tables.instances.rows).2 := by
      rw [hinTurn]
      rfl
    have hcount : (f.outset.run now inTurn).built
        = (f.stocked.installAll now f.storage.tables.instances.rows).1 := by
      rw [hinTurn]
      exact Nat.zero_add _
    rw [h.start_eq, ← hfleet, ← hcount, hbuilt]
    rfl
  · obtain ⟨hfleet, hcount⟩ := (hsound.run hup schedule).unique hruns h.vacant_stocked hnone hend
    rw [hfleet, hcount]
    exact ⟨rfl, hbuilt⟩
  · obtain ⟨schedule, hrun⟩ := horder order hperm
    refine ⟨schedule, ?_, ?_⟩
    · rw [hrun]
    · rw [hrun]
      exact List.nil_append order
  · obtain ⟨more, hbusy, hcomplete⟩ := (hsound.run hup schedule).exists_complete hup
    refine ⟨more, hbusy, ?_⟩
    rw [Boot.run_append]
    exact hcomplete

/-! ### A stock with gaps -/

/-- Five stored instances. Of the others than `A`, one names a geofence that is not stored, one a
    geofence of the wrong shape and one an IV list that is not stored, and nobody builds the last. -/
def gappy : Fleet where
  storage := { tables := .ofSeed {
    instances := [⟨"A", .circlePokemon, { geofences := ["loop"] }⟩,
      ⟨"B", .circleRaid, { geofences := ["loop", "nowhere"] }⟩,
      ⟨"C", .bootstrap, { geofences := ["loop"] }⟩,
      ⟨"D", .pokemonIv, { geofences := ["triangle"], ivList := some "rare" }⟩,
      ⟨"E", .custom "custom:x", { geofences := ["triangle"] }⟩]
    devices := [{ uuid := "dev-1", instanceName := some "A" },
      { uuid := "dev-2", instanceName := some "B" }]
    geofences := [⟨"loop", .circle, .list [.object [("lat", .int 0), ("lon", .int 0)]]⟩,
      ⟨"triangle", .polygon, .list [.list [.object [("lat", .int 0), ("lon", .int 0)],
        .object [("lat", .int 0), ("lon", .int 1)], .object [("lat", .int 1), ("lon", .int 0)]]]⟩] } }

/-- Whatever the schedule, the circle is built and gets its device, and four failures are counted. -/
theorem boot_settles_gappy : gappy.Idle ∧ ∃ b, gappy.boot = .ok b
    ∧ ∀ schedule, (b.run (.ofSeconds 0) schedule).tasks = [] →
      (b.run (.ofSeconds 0) schedule).built = 1
        ∧ (b.run (.ofSeconds 0) schedule).fleet.metrics.buildFailures = 4
        ∧ (b.run (.ofSeconds 0) schedule).fleet.attached? "A" "dev-1" = some true := by
  have hidle : gappy.Idle := ⟨rfl, rfl, rfl, rfl, ⟨fun _ _ => nofun, fun _ _ => nofun⟩⟩
  obtain ⟨b, g, hboot, hstart, -, hall, -⟩ := boot_settles hidle (.ofSeconds 0)
  have hsize : (gappy.start (.ofSeconds 0)).2.jobs.size = 1 := by decide +kernel
  have hfailures : (gappy.start (.ofSeconds 0)).2.metrics.buildFailures = 4 := by decide +kernel
  have hcrew : (gappy.start (.ofSeconds 0)).2.attached? "A" "dev-1" = some true := by decide +kernel
  rw [hstart] at hsize hfailures hcrew
  refine ⟨hidle, b, hboot, fun schedule hnone => ?_⟩
  obtain ⟨hfleet, hbuilt⟩ := hall schedule hnone
  refine ⟨hbuilt.trans hsize, ?_, ?_⟩
  · rw [← hfailures, ← hfleet]
    rfl
  · rw [← hcrew, ← hfleet]
    rfl

end Fleet

end ScanFleet
