import Mathlib.Logic.Relation
import ScanFleet.Fleet.Boot
import ScanFleet.Proofs.Fleet.Build

set_option autoImplicit false

/-! # A build on its own

The steps of a build that nothing else comes between lead to what `Fleet.build` answers, and have the
same rows remembered. The build follows the lookups piece by piece: a geofence, all geofences, the area,
the IV list. -/

namespace ScanFleet

namespace BuildStage

variable (f : Fleet) (definition : Instance) (now : Instant)

/-- A build makes a step, and the lookups are what it leaves them. -/
def Advances (a b : BuildStage × Lookups) : Prop :=
  (∀ answer, a.1 ≠ .ended answer) ∧ b = a.1.step { f with lookups := a.2 } definition now

/-- A build makes some steps with no other step in between. -/
abbrev Reaches : BuildStage × Lookups → BuildStage × Lookups → Prop :=
  Relation.ReflTransGen (Advances f definition now)

/-- What is left of a build after a lookup: it has failed, or goes on with what was found. -/
def afterLookup {α : Type} (goOn : α → BuildStage) :
    Except FleetError α × Lookups → BuildStage × Lookups
  | (.error error, lookups) => (.ended (.error (.failed error)), lookups)
  | (.ok found, lookups) => (goOn found, lookups)

theorem advances_geofence (found : List Json) (name : String) (left : List String)
    (fetch : Fetch Geofence) (l : Lookups) :
    Advances f definition now (.geofence found name left fetch, l)
      (step { f with lookups := l } definition now (.geofence found name left fetch)) :=
  ⟨fun _ => nofun, rfl⟩

theorem advances_ivList (area : Area) (name : String) (fetch : Fetch IvList) (l : Lookups) :
    Advances f definition now (.ivList area name fetch, l)
      (step { f with lookups := l } definition now (.ivList area name fetch)) :=
  ⟨fun _ => nofun, rfl⟩

variable {f definition now}

theorem reaches_geofence (found : List Json) (name : String) (left : List String) (l : Lookups) :
    Reaches f definition now (.geofence found name left .search, l)
      (afterLookup (fun row => withPayloads definition (found ++ [row.area]) left)
        (l.geofence f.storage name)) := by
  have hsearch := advances_geofence f definition now found name left .search l
  have hread := advances_geofence f definition now found name left .read l
  simp only [step, Fetch.step] at hsearch hread
  unfold Lookups.geofence Lookups.lookUp
  cases hget : l.geofences.get? name with
  | some row =>
    rw [hget] at hsearch
    exact .single hsearch
  | none =>
    rw [hget] at hsearch
    cases hstored : f.storage.geofence? name with
    | error error =>
      rw [hstored] at hread
      exact .head hsearch (.single hread)
    | ok answer =>
      rw [hstored] at hread
      cases answer with
      | none => exact .head hsearch (.single hread)
      | some row =>
        have hremember := advances_geofence f definition now found name left (.remember row) l
        exact .head hsearch (.head hread (.single hremember))

theorem reaches_ivList (area : Area) (name : String) (l : Lookups) :
    Reaches f definition now (.ivList area name .search, l)
      (afterLookup (fun list => .ready area (some list)) (l.ivList f.storage name)) := by
  have hsearch := advances_ivList f definition now area name .search l
  have hread := advances_ivList f definition now area name .read l
  simp only [step, Fetch.step] at hsearch hread
  unfold Lookups.ivList Lookups.lookUp
  cases hget : l.ivLists.get? name with
  | some list =>
    rw [hget] at hsearch
    exact .single hsearch
  | none =>
    rw [hget] at hsearch
    cases hstored : f.storage.ivList? name with
    | error error =>
      rw [hstored] at hread
      exact .head hsearch (.single hread)
    | ok answer =>
      rw [hstored] at hread
      cases answer with
      | none => exact .head hsearch (.single hread)
      | some list =>
        have hremember := advances_ivList f definition now area name (.remember list) l
        exact .head hsearch (.head hread (.single hremember))

theorem reaches_payloads (found : List Json) (names : List String) (l : Lookups) :
    Reaches f definition now (withPayloads definition found names, l)
      (afterLookup (fun payloads => withPayloads definition (found ++ payloads) [])
        (l.payloads f.storage names)) := by
  induction names generalizing found l with
  | nil =>
    show Reaches f definition now _ (withPayloads definition (found ++ []) [], l)
    rw [List.append_nil]
  | cons name left ih =>
    refine .trans (reaches_geofence found name left l) ?_
    rw [Lookups.payloads]
    obtain ⟨answer, after⟩ := l.geofence f.storage name
    cases answer with
    | error error => exact .refl
    | ok row =>
      refine .trans (ih (found ++ [row.area]) after) ?_
      dsimp only
      obtain ⟨answer, after⟩ := after.payloads f.storage left
      cases answer with
      | error error => exact .refl
      | ok payloads =>
        show Reaches f definition now
          (withPayloads definition (found ++ [row.area] ++ payloads) [], after)
          (withPayloads definition (found ++ (row.area :: payloads)) [], after)
        rw [List.append_assoc, List.singleton_append]

theorem reaches_area (l : Lookups) :
    Reaches f definition now (opening definition, l)
      (afterLookup (withArea definition) (l.area f.storage definition)) := by
  unfold opening Lookups.area
  split
  · exact .refl
  · refine .trans (reaches_payloads [] definition.settings.geofences l) ?_
    obtain ⟨answer, after⟩ := l.payloads f.storage definition.settings.geofences
    cases answer with
    | error error => exact .refl
    | ok payloads =>
      show Reaches f definition now (withPayloads definition payloads [], after) _
      rw [withPayloads]
      dsimp only
      cases Area.decode definition.kind.shape payloads with
      | error fault => exact .refl
      | ok area => exact .refl

theorem reaches_ivListOf (area : Area) (l : Lookups) :
    Reaches f definition now (withArea definition area, l)
      (afterLookup (.ready area) (l.ivListOf f.storage definition)) := by
  unfold withArea Lookups.ivListOf
  cases definition.settings.ivList with
  | none => exact .refl
  | some name =>
    refine .trans (reaches_ivList area name l) ?_
    dsimp only
    obtain ⟨answer, after⟩ := l.ivList f.storage name
    cases answer with
    | error error => exact .refl
    | ok list => exact .refl

/-- On its own a build comes to what is built in one go. -/
theorem reaches_build :
    Reaches f definition now (opening definition, f.lookups)
      (.ended (f.build definition now).1, (f.plan definition).2) := by
  refine .trans (reaches_area f.lookups) ?_
  rw [Fleet.build_eq, Fleet.plan]
  obtain ⟨answer, after⟩ := f.lookups.area f.storage definition
  cases answer with
  | error error => exact .refl
  | ok area =>
    refine .trans (reaches_ivListOf area after) ?_
    dsimp only
    obtain ⟨answer, after⟩ := after.ivListOf f.storage definition
    cases answer with
    | error error => exact .refl
    | ok list => exact .single ⟨fun _ => nofun, rfl⟩

end BuildStage

end ScanFleet
