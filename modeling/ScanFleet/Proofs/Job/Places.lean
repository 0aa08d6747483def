import ScanFleet.Proofs.Geo.Decoding
import ScanFleet.Proofs.Job.Run

set_option autoImplicit false

/-! # Where devices are sent

Whatever is done with a job, its patrol walks the route of the area that the job was built with: a
reload starts over on that route, and a new day at its first place. So a device is sent to places of the
area only (`Job.Sends`). The built-in roster builds a job for every decoded area of the shape that a
kind asks for, and then these are places that a payload of the area marks. -/

namespace ScanFleet

theorem Patrol.mem_route_of_advance {p q : Patrol} {step : PatrolStep}
    (h : p.advance = (some step, q)) : step.place ∈ p.route := by
  unfold advance at h
  split at h
  · cases h
  · split at h
    · cases h
    · rename_i place hplace
      have hmem := List.mem_of_getElem? hplace
      split at h
      · cases h
        exact hmem
      · cases h
        exact hmem

namespace Job

/-- The job has an area, and its patrol walks the route of that area. -/
structure KeepsTo (j : Job) (area : Area) : Prop where
  area_eq : j.area = area
  route_eq : j.patrol.route = area.route

/-- A scan that is handed out lies in the area, and the job keeps to the area. -/
structure Sends (area : Area) (answer : Handout × Job) : Prop where
  place : ∀ {action place minLevel maxLevel},
    answer.1.task = .scan action place minLevel maxLevel → place ∈ area.route
  keeps : answer.2.KeepsTo area

section Answers

variable {j : Job} {area : Area}

theorem keepsTo_job (plan : JobPlan) (duty : Duty) : (plan.job duty).KeepsTo plan.area := ⟨rfl, rfl⟩

theorem KeepsTo.with_duty (h : j.KeepsTo area) (duty : Duty) : ({ j with duty } : Job).KeepsTo area :=
  ⟨h.area_eq, h.route_eq⟩

theorem KeepsTo.with_patrol (h : j.KeepsTo area) {patrol : Patrol}
    (hroute : patrol.route = j.patrol.route) (duty : Duty) :
    ({ j with patrol, duty } : Job).KeepsTo area :=
  ⟨h.area_eq, hroute.trans h.route_eq⟩

/-- A device without work is sent nowhere. -/
theorem sends_idle {completes : Bool} (h : j.KeepsTo area) : Sends area (⟨.idle, completes⟩, j) where
  place htask := by cases htask
  keeps := h

/-- Only the place of a scan matters, not what is scanned for and by whom. -/
theorem sends_scan {action : ScanAction} {place : Coordinate} {minLevel maxLevel : UInt8}
    {completes : Bool} (hplace : place ∈ area.route) (h : j.KeepsTo area) :
    Sends area (⟨.scan action place minLevel maxLevel, completes⟩, j) where
  place htask := by
    cases htask
    exact hplace
  keeps := h

/-- The next place of a patrol is one of the area, also when the patrol has just started over. -/
theorem KeepsTo.advance (h : j.KeepsTo area) {patrol next : Patrol} {step : PatrolStep}
    (hroute : patrol.route = j.patrol.route) (hstep : patrol.advance = (some step, next)) :
    step.place ∈ area.route ∧ next.route = j.patrol.route := by
  have hkept : patrol.advance.2.route = patrol.route := patrol.route_advance
  have hplace := Patrol.mem_route_of_advance hstep
  rw [hstep] at hkept
  rw [hroute, h.route_eq] at hplace
  exact ⟨hplace, hkept.trans hroute⟩

theorem KeepsTo.patrolTask (h : j.KeepsTo area) (action : ScanAction) :
    Sends area (j.patrolTask action) := by
  unfold Job.patrolTask
  split
  · rename_i step next hstep
    obtain ⟨hplace, hroute⟩ := h.advance rfl hstep
    exact sends_scan hplace (h.with_patrol hroute j.duty)
  · exact sends_idle h

theorem KeepsTo.bootstrapTask (h : j.KeepsTo area) (state : BootstrapState) :
    Sends area (j.bootstrapTask state) := by
  unfold Job.bootstrapTask
  split
  · exact sends_idle h
  · rename_i step next hstep
    obtain ⟨hplace, hroute⟩ := h.advance rfl hstep
    dsimp only
    split
    · exact sends_scan hplace (h.with_patrol hroute j.duty)
    · exact sends_scan hplace (h.with_patrol hroute _)

/-- Another date starts over on the same route. -/
theorem route_questDay (patrol : Patrol) (state : QuestState) (today : Date) :
    (questDay patrol state today).1.route = patrol.route := by
  unfold questDay
  split
  · rfl
  · rfl

theorem KeepsTo.questTask (h : j.KeepsTo area) (state : QuestState) (today : Date)
    (account : Option String) : Sends area (j.questTask state today account) := by
  have hday := route_questDay j.patrol state today
  unfold Job.questTask
  dsimp only
  split
  · exact sends_idle (h.with_patrol hday _)
  · split
    · rename_i next hstep
      have hroute := (questDay j.patrol state today).1.route_advance
      rw [hstep] at hroute
      exact sends_idle (h.with_patrol (hroute.trans hday) _)
    · rename_i step next hstep
      obtain ⟨hplace, hroute⟩ := h.advance hday hstep
      exact sends_scan hplace (h.with_patrol hroute _)

/-- An encounter to check is no scan; without one the patrol goes on. -/
theorem KeepsTo.ivTask (h : j.KeepsTo area) (desk : IvDesk) (store : EncounterStore) (now : Instant) :
    Sends area (j.ivTask desk store now) := by
  unfold Job.ivTask
  dsimp only
  split
  · rename_i task kept hnext
    refine ⟨fun htask => ?_, h.with_duty _⟩
    obtain rfl : task = _ := htask
    unfold IvDesk.nextTask at hnext
    split at hnext
    · cases hnext
    · cases hnext
  · exact (h.with_duty _).patrolTask .pokemon

/-- What a job hands out, if it hands out anything, and what becomes of it then. -/
theorem KeepsTo.handOut (h : j.KeepsTo area) (account : Option String) (now : Instant) :
    (j.handOut account now).2.KeepsTo area ∧ ∀ handout, (j.handOut account now).1 = some handout →
      Sends area (handout, (j.handOut account now).2) := by
  have hanswer {answer : Handout × Job} (hsends : Sends area answer) :
      (answer.map some id).2.KeepsTo area ∧ ∀ handout, (answer.map some id).1 = some handout →
        Sends area (handout, (answer.map some id).2) := by
    refine ⟨hsends.keeps, fun handout hout => ?_⟩
    obtain rfl : answer.1 = handout := Option.some.inj hout
    exact hsends
  unfold Job.handOut
  split
  · exact hanswer (sends_idle h)
  · split
    · exact hanswer (h.patrolTask _)
    · exact hanswer (h.patrolTask .spawnpoint)
    · exact hanswer (h.bootstrapTask _)
    · exact hanswer (h.ivTask _ _ now)
    · split
      · exact ⟨⟨h.area_eq, h.route_eq⟩, fun handout hout => by cases hout⟩
      · exact hanswer (h.questTask _ _ account)

end Answers

/-! ## Runs -/

section Runs

variable {j : Job} {area : Area}

/-- Orders do not change the route. -/
theorem KeepsTo.order (h : j.KeepsTo area) (f : Patrol → Patrol)
    (hroute : (f j.patrol).route = j.patrol.route) : (j.order f).KeepsTo area := by
  unfold Job.order
  split
  · exact h
  · exact h.with_patrol hroute j.duty

/-- The route after a reload is read off the area again. -/
theorem KeepsTo.reload (h : j.KeepsTo area) : j.reload.KeepsTo area := by
  unfold Job.reload
  split
  · exact h.with_duty _
  · refine ⟨h.area_eq, ?_⟩
    show j.area.route = area.route
    rw [h.area_eq]

theorem KeepsTo.addSighting (h : j.KeepsTo area) (s : Sighting) (time : Instant) :
    (j.addSighting s time).KeepsTo area := by
  unfold Job.addSighting
  split
  · exact h.with_duty _
  · exact h

theorem KeepsTo.addIv (h : j.KeepsTo area) (s : Sighting) (time : Instant) :
    (j.addIv s time).KeepsTo area := by
  unfold Job.addIv
  split
  · exact h.with_duty _
  · exact h

theorem KeepsTo.act (h : j.KeepsTo area) (a : JobAct) : (j.act a).2.KeepsTo area := by
  cases a with
  | task account time => exact (h.handOut account time).1
  | reload => exact h.reload
  | stop => exact h.order Patrol.stop rfl
  | attach uuid => exact h.order (·.attach uuid) rfl
  | detach uuid => exact h.order (·.detach uuid) rfl
  | sighting s time => exact h.addSighting s time
  | checked s time => exact h.addIv s time

/-- Only a check-in hands out work. -/
theorem KeepsTo.place (h : j.KeepsTo area) {a : JobAct} {action : ScanAction} {place : Coordinate}
    {minLevel maxLevel : UInt8}
    (hwork : JobStep.work? ⟨j, a⟩ = some (.scan action place minLevel maxLevel)) :
    place ∈ area.route := by
  obtain ⟨hout, -⟩ := Option.filter_eq_some_iff.1 hwork
  obtain ⟨handout, hhandout, htask⟩ := Option.map_eq_some_iff.1 hout
  cases a with
  | task account time => exact ((h.handOut account time).2 handout hhandout).place htask
  | reload => cases hhandout
  | stop => cases hhandout
  | attach uuid => cases hhandout
  | detach uuid => cases hhandout
  | sighting s time => cases hhandout
  | checked s time => cases hhandout

theorem KeepsTo.steps (h : j.KeepsTo area) (acts : List JobAct) :
    ∀ s ∈ j.steps acts, s.job.KeepsTo area := by
  induction acts generalizing j with
  | nil => exact fun s hs => absurd hs List.not_mem_nil
  | cons a rest ih =>
    intro s hs
    rcases List.mem_cons.1 hs with rfl | hs
    · exact h
    · exact ih (h.act a) s hs

end Runs

end Job

/-! ## Building on a decoded area -/

/-- A decoded area of the shape of the kind serves the instance. -/
theorem JobPlan.areaFault?_of_decode {plan : JobPlan} {payloads : List Json}
    (h : Area.decode plan.definition.kind.shape payloads = .ok plan.area) :
    plan.areaFault? = none := by
  have hroute : plan.area.route.isEmpty = false :=
    List.isEmpty_eq_false_iff.2 (Area.route_ne_nil_of_decode h)
  unfold areaFault?
  dsimp only
  rw [if_neg (not_not_intro (Area.shape_of_decode h)), hroute, if_neg Bool.false_ne_true]

/-- A kind with a name of its own is served. Only the builder for quests needs a date, and only the
    builder for individual values a list. -/
theorem BuilderRoster.builtin_get? {kind : JobKind} (h : kind.isCustom = false) :
    ∃ builder : JobBuilder, builtin.get? kind = some ⟨kind, builder⟩
      ∧ (builder = .autoQuest ↔ kind = .autoQuest) ∧ (builder = .pokemonIv ↔ kind = .pokemonIv) := by
  cases kind with
  | circlePokemon => exact ⟨.circle, by decide +kernel⟩
  | circleRaid => exact ⟨.circle, by decide +kernel⟩
  | smartCircleRaid => exact ⟨.circle, by decide +kernel⟩
  | autoQuest => exact ⟨.autoQuest, by decide +kernel⟩
  | pokemonIv => exact ⟨.pokemonIv, by decide +kernel⟩
  | bootstrap => exact ⟨.bootstrap, by decide +kernel⟩
  | findUnknownSpawnpoint => exact ⟨.spawnpoint, by decide +kernel⟩
  | custom tag => cases h

/-- With a serving area a job is built, unless the builder lacks a date or a list. -/
theorem JobBuilder.exists_build_iff {builder : JobBuilder} {plan : JobPlan} {clock : Instant}
    (harea : plan.areaFault? = none) (hlist : builder = .pokemonIv → plan.ivList.isSome = true) :
    (∃ job, builder.build plan clock = .ok job)
      ↔ (builder = .autoQuest → (clock.clockDate? (plan.offset.getD 0)).isSome = true) := by
  unfold JobBuilder.build
  rw [harea]
  cases builder with
  | circle => simp
  | spawnpoint => simp
  | bootstrap => simp
  | autoQuest =>
    dsimp only
    cases clock.clockDate? (plan.offset.getD 0) with
    | none => simp
    | some today => simp
  | pokemonIv =>
    obtain ⟨list, hlist⟩ := Option.isSome_iff_exists.1 (hlist rfl)
    simp [hlist]

/-- What decodes, builds, and sends devices to decoded places only. Of an instance of any kind with a
    name of its own, over payloads that decode to an area of the shape of the kind, a job is built,
    provided that the clock shows a date to a quest job. Whatever is done with the job then, every scan
    that it hands out lies at a place that one of the payloads marks, on the globe. -/
theorem sends_to_marks {plan : JobPlan} {payloads : List Json}
    (hkind : plan.definition.kind.isCustom = false)
    (harea : Area.decode plan.definition.kind.shape payloads = .ok plan.area)
    (hlist : plan.definition.kind = .pokemonIv → plan.ivList.isSome = true) (clock : Instant) :
    ((∃ j, BuilderRoster.builtin.build plan clock = .ok j)
        ↔ (plan.definition.kind = .autoQuest → (clock.clockDate? (plan.offset.getD 0)).isSome = true))
      ∧ ∀ j, BuilderRoster.builtin.build plan clock = .ok j →
        ∀ acts, ∀ s ∈ j.steps acts, ∀ action place minLevel maxLevel,
          s.work? = some (.scan action place minLevel maxLevel) →
          (∃ payload ∈ payloads, Area.Marks plan.definition.kind.shape payload place)
            ∧ place.isFinite = true ∧ place.inRange = true := by
  obtain ⟨builder, hpost, hquests, hivs⟩ := BuilderRoster.builtin_get? hkind
  have hserved : BuilderRoster.builtin.build plan clock = builder.build plan clock := by
    rw [BuilderRoster.build, hpost]
  rw [hserved]
  constructor
  · rw [← hquests]
    exact JobBuilder.exists_build_iff (JobPlan.areaFault?_of_decode harea) fun h => hlist (hivs.1 h)
  · intro j hbuild acts s hs action place minLevel maxLevel hwork
    obtain ⟨duty, rfl⟩ := JobBuilder.exists_duty hbuild
    have hkeeps := (Job.keepsTo_job plan duty).steps acts s hs
    exact Area.marks_of_mem_route harea (hkeeps.place hwork)

/-- A quest job over two payloads, the second of which repeats a vertex of the first and is written with
    lists for coordinates. The job is reloaded and then asked on another day. -/
theorem sends_to_marks_twoPayloads :
    let corner (lat lon : Int) : Json := .object [("lat", .int lat), ("lon", .int lon)]
    let payloads : List Json :=
      [.list [.list [corner 0 0, corner 0 2, corner 2 2]],
        .list [.list [.list [.int 2, .int 2], corner 2 4, corner 4 4]]]
    let plan : JobPlan :=
      { definition := { name := "stops", kind := .autoQuest, settings := {} }
        area := .polygons [[⟨0, 0⟩, ⟨0, 2⟩, ⟨2, 2⟩], [⟨2, 2⟩, ⟨2, 4⟩, ⟨4, 4⟩]] }
    let late := Instant.ofSeconds 86000
    let acts : List JobAct :=
      [.task none late, .task none late, .reload, .task none late, .task none (.ofSeconds 86500)]
    plan.definition.kind.isCustom = false
      ∧ Area.decode plan.definition.kind.shape payloads = .ok plan.area
      ∧ ∃ j, BuilderRoster.builtin.build plan late = .ok j ∧ ∀ s ∈ j.steps acts,
        ∀ action place minLevel maxLevel, s.work? = some (.scan action place minLevel maxLevel) →
          (∃ payload ∈ payloads, Area.Marks plan.definition.kind.shape payload place)
            ∧ place.isFinite = true ∧ place.inRange = true := by
  intro corner payloads plan late acts
  have harea : Area.decode plan.definition.kind.shape payloads = .ok plan.area := rfl
  have hlist : plan.definition.kind = .pokemonIv → plan.ivList.isSome = true := nofun
  obtain ⟨hbuilds, hsends⟩ := sends_to_marks rfl harea hlist late
  obtain ⟨j, hbuild⟩ := hbuilds.2 fun _ => by decide +kernel
  exact ⟨rfl, harea, j, hbuild, hsends j hbuild acts⟩

end ScanFleet
