import ScanFleet.Geo.Area
import ScanFleet.Text.Split

set_option autoImplicit false

/-! # Instances

An instance is a named scan job: a kind and its settings. The kind decides the shape of the area.
Seven kinds have names of their own. Any other is told by its tag, which is read as a kind if it is
`custom:` with a label. -/

namespace ScanFleet

/-- The kind of a scan job. -/
inductive JobKind where
  | circlePokemon
  | circleRaid
  | smartCircleRaid
  | autoQuest
  | pokemonIv
  | bootstrap
  | findUnknownSpawnpoint
  | custom (tag : String)
  deriving DecidableEq

namespace JobKind

instance : Inhabited JobKind := ⟨circlePokemon⟩

/-- The kinds with names of their own. -/
def builtin : List JobKind :=
  [circlePokemon, circleRaid, smartCircleRaid, autoQuest, pokemonIv, bootstrap,
    findUnknownSpawnpoint]

/-- The name of a kind. -/
def name : JobKind → String
  | circlePokemon => "circle_pokemon"
  | circleRaid => "circle_raid"
  | smartCircleRaid => "smart_circle_raid"
  | autoQuest => "auto_quest"
  | pokemonIv => "pokemon_iv"
  | bootstrap => "bootstrap"
  | findUnknownSpawnpoint => "find_unknown_spawnpoint"
  | custom tag => tag

/-- What the tags of custom kinds start with. -/
def customLead : List Char := "custom:".toList

/-- Whether the kind can be read from its name. -/
def isParsed : JobKind → Bool
  | custom tag => (afterLead customLead tag.toList).any (· ≠ [])
  | _ => true

/-- The kind with the given name. -/
def ofName? (name : String) : Option JobKind :=
  match builtin.find? fun kind => kind.name == name with
  | some kind => some kind
  | none => if (custom name).isParsed then some (custom name) else none

/-- Whether the kind is a custom one. -/
def isCustom : JobKind → Bool
  | custom _ => true
  | _ => false

theorem mem_builtin_of_isCustom {kind : JobKind} (h : kind.isCustom = false) : kind ∈ builtin := by
  cases kind with
  | custom tag => cases h
  | _ => decide

theorem eq_of_name_of_mem_builtin : ∀ a ∈ builtin, ∀ b ∈ builtin, a.name = b.name → a = b := by
  decide

/-- Circles walk a route of points; every other kind covers polygons. -/
def shape : JobKind → Shape
  | circlePokemon | circleRaid | smartCircleRaid => .points
  | _ => .polygons

/-- Kinds are listed by their names. A custom kind may have taken the name of another. -/
instance : Ord JobKind := ⟨compareLex (compareOn name) (compareOn isCustom)⟩

instance : Std.TransOrd JobKind :=
  inferInstanceAs (Std.TransCmp (compareLex (compareOn name) (compareOn isCustom)))

instance : Std.LawfulEqOrd JobKind where
  eq_of_compare {a b} h := by
    obtain ⟨hnames, hcustoms⟩ := compareLex_eq_eq.1 h
    have hname : a.name = b.name := Std.LawfulEqOrd.eq_of_compare hnames
    have hcustom : a.isCustom = b.isCustom := Std.LawfulEqOrd.eq_of_compare hcustoms
    cases ha : a.isCustom with
    | false =>
      exact eq_of_name_of_mem_builtin a (mem_builtin_of_isCustom ha) b
        (mem_builtin_of_isCustom (hcustom.symm.trans ha)) hname
    | true =>
      have hb := hcustom.symm.trans ha
      cases a with
      | custom tag =>
        cases b with
        | custom other => exact congrArg custom hname
        | _ => cases hb
      | _ => cases ha

instance : JsonForm JobKind where
  toJson kind := .text kind.name
  ofJson?
    | .text name => ofName? name
    | _ => none

end JobKind

/-- The settings of an instance; a kind of job ignores those that it has no use for. -/
structure JobSettings where
  minLevel : UInt8 := 0
  maxLevel : UInt8 := 50
  /-- The names of the geofences that make up the area, in order. -/
  geofences : List String := []
  routeStyle : Option String := none
  timezone : Option String := none
  /-- How many quests an account may be given on one day. -/
  spinLimit : Option UInt32 := none
  ivList : Option String := none
  ivQueueLimit : Option UInt64 := none
  circleSize : Option UInt32 := none
  /-- Whether any account may take part in bootstrapping. -/
  fastBootstrap : Bool := false
  accountGroup : Option String := none
  isEvent : Bool := false
  deriving DecidableEq, Repr, Inhabited

namespace JobSettings

instance : JsonForm JobSettings where
  toJson s := .object
    [("min_level", toJson s.minLevel), ("max_level", toJson s.maxLevel),
     ("geofences", toJson s.geofences), ("route_style", toJson s.routeStyle),
     ("timezone", toJson s.timezone), ("spin_limit", toJson s.spinLimit),
     ("iv_list", toJson s.ivList), ("iv_queue_limit", toJson s.ivQueueLimit),
     ("circle_size", toJson s.circleSize), ("fast_bootstrap_mode", toJson s.fastBootstrap),
     ("account_group", toJson s.accountGroup), ("is_event", toJson s.isEvent)]
  ofJson? j := do
    let r ← j.record? ["min_level", "max_level", "geofences", "route_style", "timezone",
      "spin_limit", "iv_list", "iv_queue_limit", "circle_size", "fast_bootstrap_mode",
      "account_group", "is_event"]
    return {
      minLevel := ← r.withDefault "min_level" 0
      maxLevel := ← r.withDefault "max_level" 50
      geofences := ← r.withDefault "geofences" []
      routeStyle := ← r.optional "route_style"
      timezone := ← r.optional "timezone"
      spinLimit := ← r.optional "spin_limit"
      ivList := ← r.optional "iv_list"
      ivQueueLimit := ← r.optional "iv_queue_limit"
      circleSize := ← r.optional "circle_size"
      fastBootstrap := ← r.withDefault "fast_bootstrap_mode" false
      accountGroup := ← r.optional "account_group"
      isEvent := ← r.withDefault "is_event" false }

end JobSettings

/-- A named scan job. -/
structure Instance where
  name : String
  kind : JobKind
  settings : JobSettings := {}
  deriving DecidableEq, Inhabited

namespace Instance

instance : Keyed Instance String := ⟨Instance.name⟩

/-- The instance with one more geofence at the end of its area. -/
def addGeofence (i : Instance) (name : String) : Instance :=
  { i with settings := { i.settings with geofences := i.settings.geofences ++ [name] } }

instance : JsonForm Instance where
  toJson i := .object
    [("name", toJson i.name), ("type", toJson i.kind), ("data", toJson i.settings)]
  ofJson? j := do
    let r ← j.record? ["name", "type", "data"]
    return ⟨← r.required "name", ← r.required "type", ← r.withDefault "data" {}⟩

end Instance

end ScanFleet
