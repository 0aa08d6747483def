import ScanFleet.Proofs.Fleet.Placement
import ScanFleet.Station.Basic

set_option autoImplicit false

/-! # Startup passes of a station

A startup pass of a station goes by the rules that need no source and whose time has come on the day of
the pass. For each device without an instance it picks the latest of those that name the device, and
places the device if the target of that rule is defined; all other devices stay as they are. -/

namespace ScanFleet

namespace Station

variable {s : Station} {today : Date} {second : Nat}

/-- A rule may place a device: it is in use, needs no source, has come today and holds on the day, and
    it names the device or a group that can be read and that the device is a member of. -/
structure Suits (s : Station) (today : Date) (second : Nat) (uuid : String) (a : Assignment) : Prop where
  enabled : a.enabled = true
  unsourced : a.source = none
  due : a.time.toNat ≤ second
  holds : ∀ date, a.date = some date → date = today
  names : a.scope = .device uuid ∨ ∃ name group, a.scope = .group name
    ∧ s.fleet.storage.group? name = .ok (some group) ∧ uuid ∈ group.members

/-- A startup pass is to put a device onto an instance. -/
structure Places (s : Station) (today : Date) (second : Nat) (d : Device) (target : String) : Prop where
  registered : s.fleet.devices.get? d.uuid = some d
  free : d.instanceName = none
  chosen : ∃ a, IsLatest s.schedule.rules (s.Suits today second d.uuid) a ∧ a.target = target
  defined : s.fleet.definitions.has target = true

theorem suits_iff {uuid : String} {a : Assignment} :
    s.Suits today second uuid a
      ↔ (a.enabled && a.source.isNone && (a.onCompletion || decide (a.time.toNat ≤ second))
          && a.holdsOn today) = true
        ∧ s.fleet.names a uuid = true := by
  have htime : (a.onCompletion || decide (a.time.toNat ≤ second)) = true ↔ a.time.toNat ≤ second := by
    rw [Bool.or_eq_true, decide_eq_true_eq, or_iff_right_of_imp]
    intro hzero
    have hstart : a.time = 0 := by simpa [Assignment.onCompletion] using hzero
    simp [hstart]
  have hholds : a.holdsOn today = true ↔ ∀ date, a.date = some date → date = today := by
    simp [Assignment.holdsOn, Option.all_eq_true]
  rw [Bool.and_eq_true, Bool.and_eq_true, Bool.and_eq_true, Option.isNone_iff_eq_none, htime, hholds,
    Fleet.names_iff_scope]
  constructor
  · rintro ⟨henabled, hsource, hdue, hon, hnames⟩
    exact ⟨⟨⟨⟨henabled, hsource⟩, hdue⟩, hon⟩, hnames⟩
  · rintro ⟨⟨⟨⟨henabled, hsource⟩, hdue⟩, hon⟩, hnames⟩
    exact ⟨henabled, hsource, hdue, hon, hnames⟩

/-- The rule that places a device is the latest of those that suit it. -/
theorem placing?_startupRules_iff {uuid : String} {a : Assignment} :
    s.fleet.placing? (s.schedule.startupRules today second) uuid = some a
      ↔ IsLatest s.schedule.rules (s.Suits today second uuid) a := by
  rw [Fleet.placing?_eq_some_iff, Schedule.startupRules, isLatest_filter_iff]
  simp only [← suits_iff]

theorem places_iff {d : Device} {target : String} :
    s.Places today second d target
      ↔ d ∈ s.fleet.placed (s.schedule.startupRules today second)
        ∧ s.fleet.destination (s.schedule.startupRules today second) d.uuid = target := by
  simp only [Fleet.mem_placed_iff, placing?_startupRules_iff]
  constructor
  · rintro ⟨hget, hfree, ⟨a, hlatest, rfl⟩, hdefined⟩
    refine ⟨⟨hget, hfree, a, hlatest, hdefined⟩, ?_⟩
    rw [Fleet.destination, placing?_startupRules_iff.2 hlatest]
    rfl
  · rintro ⟨⟨hget, hfree, a, hlatest, hdefined⟩, rfl⟩
    rw [Fleet.destination, placing?_startupRules_iff.2 hlatest]
    exact ⟨hget, hfree, ⟨a, hlatest, rfl⟩, hdefined⟩

theorem startUpAt_eq (s : Station) (today : Date) (second : Nat) :
    s.startUpAt today second
      = ((s.fleet.placeAll (s.schedule.startupRules today second)).1,
        { s with
          schedule := s.schedule.countPass
          fleet := (s.fleet.placeAll (s.schedule.startupRules today second)).2 }) := rfl

/-- A startup pass puts each device that it is to place onto the target of the rule chosen for it, leaves
    all others as they are, and answers how many it placed. A second pass at the same date and second
    moves nothing: it only counts itself and its triggers. Only a write that hangs keeps a pass from
    coming to an end. -/
theorem startUpAt_places (s : Station) (today : Date) (second : Nat) :
    (∃ d target, s.Places today second d target ∧ s.fleet.storage.Hangs d.uuid
        ∧ (s.startUpAt today second).1 = .error .stalled)
      ∨ ∃ (placed : List Device) (t : Station), s.startUpAt today second = (.ok placed.length, t)
        ∧ placed.Nodup ∧ (∀ d, d ∈ placed ↔ ∃ target, s.Places today second d target)
        ∧ s.fleet.Relocated (s.Places today second) t.fleet
        ∧ ∃ metrics : Metrics, metrics.reassignments = t.fleet.metrics.reassignments
          ∧ t.startUpAt today second = (.ok 0,
              { t with schedule := t.schedule.countPass, fleet := { t.fleet with metrics } }) := by
  have hplaces : s.Places today second = fun d target =>
      d ∈ s.fleet.placed (s.schedule.startupRules today second)
        ∧ s.fleet.destination (s.schedule.startupRules today second) d.uuid = target :=
    funext fun _ => funext fun _ => propext places_iff
  rw [hplaces]
  obtain ⟨⟨d, hd, hhangs⟩, g, hstalled⟩ | ⟨g, heq, hobeyed⟩ :=
    s.fleet.placeAll_outcome (s.schedule.startupRules today second)
  · refine .inl ⟨d, _, ⟨hd, rfl⟩, hhangs, ?_⟩
    rw [startUpAt_eq, hstalled]
  · obtain ⟨metrics, hagain, hsame⟩ :=
      Fleet.placeAll_of_placed_eq_nil (Fleet.placed_eq_nil_of_obeyed hobeyed)
    refine .inr ⟨s.fleet.placed (s.schedule.startupRules today second),
      { s with schedule := s.schedule.countPass, fleet := g }, ?_, s.fleet.nodup_placed _,
      fun d => ?_, Fleet.relocated_of_obeyed hobeyed, metrics, hsame, ?_⟩
    · rw [startUpAt_eq, heq]
    · rw [exists_and_left, and_iff_left ⟨_, rfl⟩]
    · -- counting the first pass leaves the rules as they are
      have hrules : s.schedule.countPass.startupRules today second
          = s.schedule.startupRules today second := rfl
      rw [startUpAt_eq, hrules, hagain]

/-- A free device that two rules of one time name, by itself and through its group, and a free device of
    a group that cannot be read. -/
def twoCalls : Station where
  fleet := {
    storage := {
      tables := .ofSeed { groups := [⟨"away", ["dev-2", "dev-3"]⟩, ⟨"crew", ["dev-1", "dev-2"]⟩] }
      down := [.group "away"] }
    definitions := .ofList [⟨"A", .circlePokemon, {}⟩, ⟨"B", .circlePokemon, {}⟩]
    devices := .ofList [{ uuid := "dev-1", instanceName := some "A" }, { uuid := "dev-2" },
      { uuid := "dev-3" }] }
  schedule := { rules :=
    [{ id := 4, target := "A", group := some "away", time := 900 },
      { id := 2, target := "A", device := some "dev-2", time := 600 },
      { id := 1, target := "B", group := some "crew", time := 600 },
      { id := 3, target := "A", device := some "dev-2" }] }

/-- The rule that stands last among the latest ones decides. The device with an instance stays, and so
    does the one whose group cannot be read. -/
example : (twoCalls.startUpAt ⟨0, by decide, by decide⟩ 1200).1.toOption = some 1
    ∧ (twoCalls.startUpAt ⟨0, by decide, by decide⟩ 1200).2.fleet.devices.rows.map (·.instanceName)
      = [some "A", some "B", none] := by decide +kernel

end Station

end ScanFleet
