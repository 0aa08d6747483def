import ScanFleet.Job.Basic

set_option autoImplicit false

/-! # Building jobs

A builder turns a definition and what was looked up for it into a job. A roster of builders says
which builder serves which kind of instance. -/

namespace ScanFleet

/-- What a job is built from. -/
structure JobPlan where
  definition : Instance
  area : Area
  ivList : Option IvList := none
  /-- Seconds east of the zone that the instance follows. -/
  offset : Option Int := none

/-- Why a job was not built. -/
inductive BuildFault where
  | refused (error : JobError)
  /-- The clock shows nothing, or the local date of the zone lies beyond the calendar. -/
  | beyondCalendar
  deriving DecidableEq, Repr

/-- The ways of building a job. -/
inductive JobBuilder where
  | circle
  | autoQuest
  | pokemonIv
  | bootstrap
  | spawnpoint
  deriving DecidableEq, Repr, Inhabited

/-- The name of a shape in a message. -/
def Shape.title : Shape → String
  | .points => "Points"
  | .polygons => "Polygons"

namespace JobPlan

/-- Why the area does not serve the instance: it has the wrong shape, or no places. -/
def areaFault? (plan : JobPlan) : Option JobError :=
  let shape := plan.definition.kind.shape
  if plan.area.shape ≠ shape then
    some (.construction ("instance '" ++ plan.definition.name ++ "' of type "
      ++ plan.definition.kind.name ++ " needs a " ++ shape.title ++ " area"))
  else if plan.area.route.isEmpty then
    some (.construction ("instance '" ++ plan.definition.name ++ "' has an empty area"))
  else none

/-- The job with the given duty, at the start of its route. -/
def job (plan : JobPlan) (duty : Duty) : Job :=
  { definition := plan.definition, area := plan.area, patrol := { route := plan.area.route }, duty }

end JobPlan

/-- How many encounters are queued when nothing else is said. -/
def defaultQueueLimit : UInt64 := 100

namespace JobBuilder

/-- Builds a job. -/
def build (builder : JobBuilder) (plan : JobPlan) (now : Instant) : Except BuildFault Job :=
  match plan.areaFault? with
  | some error => .error (.refused error)
  | none =>
    match builder with
    | .circle => .ok (plan.job .circle)
    | .spawnpoint => .ok (plan.job .spawnpoints)
    | .bootstrap => .ok (plan.job (.bootstrap {}))
    | .autoQuest =>
      let offset := plan.offset.getD 0
      match now.clockDate? offset with
      | some today => .ok (plan.job (.quests { offset, today }))
      | none => .error .beyondCalendar
    | .pokemonIv =>
      match plan.ivList with
      | none => .error (.refused (.model (.missingLookup
          ("instance '" ++ plan.definition.name ++ "' needs an IV list"))))
      | some list =>
        let limit := (plan.definition.settings.ivQueueLimit.getD defaultQueueLimit).toNat
        .ok (plan.job (.encounters { list, area := plan.area, limit } {}))

/-- A job is built as the plan has it. -/
theorem exists_duty {builder : JobBuilder} {plan : JobPlan} {now : Instant} {job : Job}
    (h : builder.build plan now = .ok job) : ∃ duty, job = plan.job duty := by
  unfold JobBuilder.build at h
  split at h
  · cases h
  · split at h
    · exact ⟨_, (Except.ok.inj h).symm⟩
    · exact ⟨_, (Except.ok.inj h).symm⟩
    · exact ⟨_, (Except.ok.inj h).symm⟩
    · dsimp only at h
      split at h
      · exact ⟨_, (Except.ok.inj h).symm⟩
      · cases h
    · split at h
      · cases h
      · exact ⟨_, (Except.ok.inj h).symm⟩

/-- A job is built on a route with places. -/
theorem route_ne_nil {builder : JobBuilder} {plan : JobPlan} {now : Instant} {job : Job}
    (h : builder.build plan now = .ok job) : plan.area.route ≠ [] := by
  intro hempty
  have hfault : plan.areaFault? ≠ none := by
    unfold JobPlan.areaFault?
    rw [hempty]
    dsimp only
    split
    · exact Option.some_ne_none _
    · exact Option.some_ne_none _
  unfold JobBuilder.build at h
  split at h
  · cases h
  · rename_i hnone
    exact hfault hnone

end JobBuilder

/-- The builder that serves a kind. -/
structure BuilderPost where
  kind : JobKind
  builder : JobBuilder
  deriving DecidableEq

instance : Keyed BuilderPost JobKind := ⟨BuilderPost.kind⟩

/-- Which builder serves which kind. -/
abbrev BuilderRoster := Table BuilderPost

namespace BuilderRoster

/-- The roster of the kinds with names of their own. -/
def builtin : BuilderRoster := .ofList
  [⟨.circlePokemon, .circle⟩, ⟨.circleRaid, .circle⟩, ⟨.smartCircleRaid, .circle⟩,
   ⟨.autoQuest, .autoQuest⟩, ⟨.pokemonIv, .pokemonIv⟩, ⟨.bootstrap, .bootstrap⟩,
   ⟨.findUnknownSpawnpoint, .spawnpoint⟩]

/-- Whether a builder serves the kind. -/
def serves (roster : BuilderRoster) (kind : JobKind) : Bool := roster.has kind

/-- The kinds that are served, in order of their names. -/
def kinds (roster : BuilderRoster) : List JobKind := roster.rows.map (·.kind)

/-- Builds a job with the builder that serves its kind. -/
def build (roster : BuilderRoster) (plan : JobPlan) (now : Instant) : Except BuildFault Job :=
  match roster.get? plan.definition.kind with
  | none => .error (.refused (.unregistered plan.definition.kind.name))
  | some post => post.builder.build plan now

end BuilderRoster

end ScanFleet
