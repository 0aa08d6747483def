import ScanFleet.Fleet.Boot
import ScanFleet.Proofs.Table

set_option autoImplicit false

/-! # What a build comes to

What a build comes to is told by storage alone (`BuildStage.verdict`), as long as nothing is remembered
that is not stored. A step of the build itself keeps its verdict, and a step of another build can only
have a row remembered that would be read anyhow. Also told by storage alone is which rows will be
remembered at last: those that are remembered, and those that some build still comes to
(`BuildStage.Wants`). -/

namespace ScanFleet

/-! ## Rows that are remembered -/

/-- Every remembered row is stored. -/
def Remembers {α : Type} [Keyed α String] (stored remembered : Table α) : Prop :=
  ∀ name row, remembered.get? name = some row → stored.get? name = some row

/-- Lookups that remember nothing but what is stored. -/
structure Lookups.Faithful (tables : Tables) (l : Lookups) : Prop where
  geofences : Remembers tables.geofences l.geofences
  ivLists : Remembers tables.ivLists l.ivLists

/-- What is remembered is told by the names of the rows. -/
theorem Remembers.ext {α : Type} [Keyed α String] {stored a b : Table α} (ha : Remembers stored a)
    (hb : Remembers stored b) (h : ∀ name, a.has name = true ↔ b.has name = true) : a = b := by
  refine Table.ext_get? fun name => ?_
  have hsame := h name
  rw [Table.has, Table.has] at hsame
  cases hget : a.get? name with
  | some row =>
    rw [hget] at hsame
    obtain ⟨other, hother⟩ := Option.isSome_iff_exists.1 (hsame.1 rfl)
    rw [hother, ← ha name row hget, ← hb name other hother]
  | none =>
    rw [hget] at hsame
    refine (Option.not_isSome_iff_eq_none.1 fun habsurd => ?_).symm
    cases hsame.2 habsurd

/-- The name of a row that can be remembered. -/
inductive RowName where
  | geofence (name : String)
  | ivList (name : String)

/-- Whether a row is remembered. -/
def Lookups.has (l : Lookups) : RowName → Bool
  | .geofence name => l.geofences.has name
  | .ivList name => l.ivLists.has name

theorem Lookups.Faithful.ext {tables : Tables} {l m : Lookups} (hl : l.Faithful tables)
    (hm : m.Faithful tables) (hzones : l.zones = m.zones)
    (h : ∀ row, l.has row = true ↔ m.has row = true) : l = m := by
  obtain ⟨geofences, ivLists, zones⟩ := l
  obtain rfl : geofences = m.geofences := hl.geofences.ext hm.geofences fun name => h (.geofence name)
  obtain rfl : ivLists = m.ivLists := hl.ivLists.ext hm.ivLists fun name => h (.ivList name)
  obtain rfl : zones = m.zones := hzones
  rfl

namespace Fetch

variable {α : Type}

/-- The row that is to be remembered is stored. -/
def Sound [Keyed α String] (stored : Table α) (name : String) : Fetch α → Prop
  | .remember row => stored.get? name = some row
  | _ => True

/-- How many steps a lookup takes at most. -/
def work : Fetch α → Nat
  | .search => 3
  | .read => 2
  | .remember _ => 1

theorem work_pos (fetch : Fetch α) : 0 < fetch.work := by
  cases fetch with
  | search => exact Nat.succ_pos 2
  | read => exact Nat.succ_pos 1
  | remember row => exact Nat.succ_pos 0

variable [Keyed α String]

/-- A step of a lookup finds the stored row and remembers it, or fails because there is none, or brings
    the lookup nearer to its end. -/
theorem step_cases {stored remembered : Table α} {name : String} {fetch : Fetch α}
    (missing : FleetError) (hremembers : Remembers stored remembered)
    (hsound : fetch.Sound stored name) :
    (∃ row after, fetch.step name (.ok (stored.get? name)) missing remembered = (.found row, after)
        ∧ stored.get? name = some row ∧ Remembers stored after
        ∧ ∀ other, after.has other = true ↔ remembered.has other = true ∨ other = name)
      ∨ (fetch.step name (.ok (stored.get? name)) missing remembered = (.failed missing, remembered)
        ∧ stored.get? name = none)
      ∨ ∃ later, fetch.step name (.ok (stored.get? name)) missing remembered
          = (.goesOn later, remembered)
        ∧ later.Sound stored name ∧ later.work < fetch.work := by
  cases fetch with
  | search =>
    unfold step
    cases hget : remembered.get? name with
    | none => exact .inr (.inr ⟨.read, rfl, trivial, Nat.lt_succ_self 2⟩)
    | some row =>
      refine .inl ⟨row, remembered, rfl, hremembers name row hget, hremembers, fun other => ?_⟩
      constructor
      · exact .inl
      · rintro (hold | rfl)
        · exact hold
        · rw [Table.has, hget]
          rfl
  | read =>
    unfold step
    cases hget : stored.get? name with
    | none => exact .inr (.inl ⟨rfl, rfl⟩)
    | some row => exact .inr (.inr ⟨.remember row, rfl, hget, Nat.lt_succ_self 1⟩)
  | remember row =>
    have hrow : stored.get? name = some row := hsound
    obtain rfl : key row = name := Table.key_of_get? hrow
    refine .inl ⟨row, remembered.insert row, rfl, hrow, fun other found hfound => ?_, fun other => ?_⟩
    · rw [Table.get?_insert] at hfound
      split at hfound
      · rename_i hkey
        obtain rfl := Option.some.inj hfound
        rw [← hkey]
        exact hrow
      · exact hremembers other found hfound
    · rw [Table.has_insert, Bool.or_eq_true, decide_eq_true_eq, or_comm, @eq_comm _ other]

end Fetch

/-! ## Verdicts -/

/-- The payloads of stored geofences, in the order of their names; the first that is missing decides. -/
def Tables.payloads (tables : Tables) : List String → Except FleetError (List Json)
  | [] => .ok []
  | name :: rest =>
    match tables.geofences.get? name with
    | none => .error (.geofenceNotFound name)
    | some row => (tables.payloads rest).map (row.area :: ·)

/-- The area of a definition, from payloads and stored geofences. -/
def Tables.area (tables : Tables) (definition : Instance) (found : List Json) (names : List String) :
    Except FleetError Area :=
  match tables.payloads names with
  | .error error => .error error
  | .ok payloads =>
    (Area.decode definition.kind.shape (found ++ payloads)).mapError Lookups.areaError

theorem Tables.area_cons {tables : Tables} {name : String} {row : Geofence}
    (h : tables.geofences.get? name = some row) (definition : Instance) (found : List Json)
    (left : List String) : tables.area definition found (name :: left)
      = tables.area definition (found ++ [row.area]) left := by
  rw [area, area, payloads, h]
  cases hleft : tables.payloads left with
  | error error => rfl
  | ok rest =>
    show (Area.decode definition.kind.shape (found ++ row.area :: rest)).mapError Lookups.areaError
      = (Area.decode definition.kind.shape (found ++ [row.area] ++ rest)).mapError Lookups.areaError
    rw [List.append_assoc]
    rfl

theorem Tables.area_missing {tables : Tables} {name : String}
    (h : tables.geofences.get? name = none) (definition : Instance) (found : List Json)
    (left : List String) :
    tables.area definition found (name :: left) = .error (.geofenceNotFound name) := by
  rw [area, payloads, h]

namespace BuildStage

variable (f : Fleet) (definition : Instance) (now : Instant)

/-- What a build comes to that has looked up everything. -/
def verdictReady (area : Area) (list : Option IvList) : Except Halt Job :=
  (f.roster.build
    { definition := definition.withQueueLimit f.queueLimit, area, ivList := list,
      offset := f.lookups.offset? definition } now).mapError BuildFault.halt

/-- What a build comes to that has an area and looks up an IV list. -/
def verdictNamed (area : Area) (name : String) : Except Halt Job :=
  match f.storage.tables.ivLists.get? name with
  | none => .error (.failed (.ivListNotFound name))
  | some list => verdictReady f definition now area (some list)

/-- What a build comes to that has an area. -/
def verdictArea (area : Area) : Except Halt Job :=
  match definition.settings.ivList with
  | none => verdictReady f definition now area none
  | some name => verdictNamed f definition now area name

/-- What a build comes to that has found payloads and looks up geofences. -/
def verdictFrom (found : List Json) (names : List String) : Except Halt Job :=
  match f.storage.tables.area definition found names with
  | .error error => .error (.failed error)
  | .ok area => verdictArea f definition now area

/-- What a build comes to in the end, told by storage. -/
def verdict : BuildStage → Except Halt Job
  | .geofence found name left _ => verdictFrom f definition now found (name :: left)
  | .ivList area name _ => verdictNamed f definition now area name
  | .ready area list => verdictReady f definition now area list
  | .ended answer => answer

/-- The row with the name of an IV list is stored and is the one that the definition names. -/
def WantsList (tables : Tables) (definition : Instance) : RowName → Prop
  | .geofence _ => False
  | .ivList name => definition.settings.ivList = some name ∧ tables.ivLists.has name = true

/-- The rows that a build comes to that has found payloads and looks up geofences. -/
def WantsFrom (tables : Tables) (definition : Instance) (found : List Json) (names : List String)
    (row : RowName) : Prop :=
  (∃ name, row = .geofence name ∧ name ∈ names.takeWhile tables.geofences.has)
    ∨ (∃ area, tables.area definition found names = .ok area) ∧ WantsList tables definition row

/-- The rows that a build still comes to, told by storage. -/
def Wants (tables : Tables) (definition : Instance) : BuildStage → RowName → Prop
  | .geofence found name left _, row => WantsFrom tables definition found (name :: left) row
  | .ivList _ name _, row => row = .ivList name ∧ tables.ivLists.has name = true
  | .ready _ _, _ => False
  | .ended _, _ => False

/-- The row that is to be remembered is stored. -/
def Sound (tables : Tables) : BuildStage → Prop
  | .geofence _ name _ fetch => fetch.Sound tables.geofences name
  | .ivList _ name fetch => fetch.Sound tables.ivLists name
  | _ => True

/-- How many steps a build takes at most until it is taken in. -/
def work : BuildStage → Nat
  | .geofence _ _ left fetch => fetch.work + 3 * left.length + 6
  | .ivList _ _ fetch => fetch.work + 2
  | .ready _ _ => 2
  | .ended _ => 1

/-! ## Steps -/

variable {f : Fleet} {definition : Instance} {now : Instant} {tables : Tables}

theorem verdict_withArea (area : Area) :
    (withArea definition area).verdict f definition now = verdictArea f definition now area := by
  unfold withArea verdictArea
  cases definition.settings.ivList with
  | none => rfl
  | some name => rfl

theorem wants_withArea (area : Area) (row : RowName) :
    (withArea definition area).Wants tables definition row ↔ WantsList tables definition row := by
  unfold withArea
  cases row with
  | geofence name =>
    split
    · exact Iff.rfl
    · refine iff_of_false ?_ id
      rintro ⟨habsurd, -⟩
      cases habsurd
  | ivList name =>
    split
    · rename_i hnone
      refine iff_of_false id ?_
      rintro ⟨hsome, -⟩
      rw [hnone] at hsome
      cases hsome
    · rename_i named hnamed
      constructor
      · rintro ⟨hsame, hstored⟩
        cases hsame
        exact ⟨hnamed, hstored⟩
      · rintro ⟨hsame, hstored⟩
        rw [hnamed] at hsame
        cases hsame
        exact ⟨rfl, hstored⟩

theorem sound_withArea (area : Area) : (withArea definition area).Sound tables := by
  unfold withArea
  split
  · exact trivial
  · exact trivial

theorem work_withArea_le (area : Area) : (withArea definition area).work ≤ 5 := by
  unfold withArea
  split
  · exact Nat.le_add_left 2 3
  · exact Nat.le_refl 5

theorem area_nil (tables : Tables) (definition : Instance) (found : List Json) :
    tables.area definition found []
      = (Area.decode definition.kind.shape found).mapError Lookups.areaError := by
  show (Area.decode definition.kind.shape (found ++ [])).mapError Lookups.areaError = _
  rw [List.append_nil]

theorem verdict_withPayloads (found : List Json) (left : List String) :
    (withPayloads definition found left).verdict f definition now
      = verdictFrom f definition now found left := by
  cases left with
  | cons name rest => rfl
  | nil =>
    rw [withPayloads, verdictFrom, area_nil]
    cases Area.decode definition.kind.shape found with
    | error fault => rfl
    | ok area => exact verdict_withArea area

theorem wants_withPayloads (found : List Json) (left : List String) (row : RowName) :
    (withPayloads definition found left).Wants tables definition row
      ↔ WantsFrom tables definition found left row := by
  cases left with
  | cons name rest => exact Iff.rfl
  | nil =>
    rw [withPayloads, WantsFrom, area_nil]
    cases Area.decode definition.kind.shape found with
    | error fault =>
      refine iff_of_false id ?_
      rintro (⟨name, -, habsurd⟩ | ⟨⟨area, habsurd⟩, -⟩)
      · cases habsurd
      · cases habsurd
    | ok area =>
      refine (wants_withArea area row).trans ⟨fun h => .inr ⟨⟨area, rfl⟩, h⟩, ?_⟩
      rintro (⟨name, -, habsurd⟩ | ⟨-, h⟩)
      · cases habsurd
      · exact h

theorem sound_withPayloads (found : List Json) (left : List String) :
    (withPayloads definition found left).Sound tables := by
  cases left with
  | cons name rest => exact trivial
  | nil =>
    rw [withPayloads]
    split
    · exact trivial
    · exact sound_withArea _

theorem work_withPayloads_le (definition : Instance) (found : List Json) (left : List String) :
    (withPayloads definition found left).work ≤ 3 * left.length + 6 := by
  cases left with
  | cons name rest =>
    rw [withPayloads, work, Fetch.work, List.length_cons]
    omega
  | nil =>
    rw [withPayloads]
    split
    · exact Nat.le_add_left 1 5
    · exact Nat.le_succ_of_le (work_withArea_le _)

theorem wantsFrom_cons {name : String} {stored : Geofence}
    (h : tables.geofences.get? name = some stored) (found : List Json) (left : List String)
    (row : RowName) : WantsFrom tables definition found (name :: left) row
      ↔ row = .geofence name ∨ WantsFrom tables definition (found ++ [stored.area]) left row := by
  have hhas : tables.geofences.has name = true := by
    rw [Table.has, h]
    rfl
  rw [WantsFrom, WantsFrom, Tables.area_cons h, List.takeWhile_cons_of_pos hhas, ← or_assoc]
  refine or_congr ⟨?_, ?_⟩ Iff.rfl
  · rintro ⟨other, rfl, hother⟩
    rcases List.mem_cons.1 hother with rfl | hother
    · exact .inl rfl
    · exact .inr ⟨other, rfl, hother⟩
  · rintro (rfl | ⟨other, rfl, hother⟩)
    · exact ⟨name, rfl, List.mem_cons_self⟩
    · exact ⟨other, rfl, List.mem_cons_of_mem name hother⟩

theorem not_wantsFrom_missing {name : String} (h : tables.geofences.get? name = none)
    (found : List Json) (left : List String) (row : RowName) :
    ¬ WantsFrom tables definition found (name :: left) row := by
  have hhas : ¬ tables.geofences.has name = true := by
    rw [Table.has, h]
    exact Bool.false_ne_true
  rw [WantsFrom, Tables.area_missing h, List.takeWhile_cons_of_neg hhas]
  rintro (⟨other, -, habsurd⟩ | ⟨⟨area, habsurd⟩, -⟩)
  · cases habsurd
  · cases habsurd

theorem has_withGeofences {l : Lookups} {after : Table Geofence} {name : String}
    (h : ∀ other, after.has other = true ↔ l.geofences.has other = true ∨ other = name)
    (row : RowName) : ({ l with geofences := after } : Lookups).has row = true
      ↔ l.has row = true ∨ row = .geofence name := by
  cases row with
  | geofence other => simpa [Lookups.has] using h other
  | ivList other => simp [Lookups.has]

theorem has_withIvLists {l : Lookups} {after : Table IvList} {name : String}
    (h : ∀ other, after.has other = true ↔ l.ivLists.has other = true ∨ other = name)
    (row : RowName) : ({ l with ivLists := after } : Lookups).has row = true
      ↔ l.has row = true ∨ row = .ivList name := by
  cases row with
  | geofence other => simp [Lookups.has]
  | ivList other => simpa [Lookups.has] using h other

/-- What a step of a build keeps: nothing is remembered but what is stored, the build comes to the same,
    and as many rows are remembered in the end. -/
structure Goes (f : Fleet) (definition : Instance) (now : Instant) (stage later : BuildStage)
    (lookups : Lookups) : Prop where
  faithful : lookups.Faithful f.storage.tables
  zones : lookups.zones = f.lookups.zones
  sound : later.Sound f.storage.tables
  verdict : later.verdict f definition now = stage.verdict f definition now
  rows : ∀ row, lookups.has row = true ∨ later.Wants f.storage.tables definition row
    ↔ f.lookups.has row = true ∨ stage.Wants f.storage.tables definition row
  work : later.work < stage.work

variable (hup : f.storage.down = []) (hfaithful : f.lookups.Faithful f.storage.tables)

include hup hfaithful

theorem goes_geofence {found : List Json} {name : String} {left : List String}
    {fetch : Fetch Geofence} (hsound : fetch.Sound f.storage.tables.geofences name) :
    Goes f definition now (.geofence found name left fetch)
      (step f definition now (.geofence found name left fetch)).1
      (step f definition now (.geofence found name left fetch)).2 := by
  have hread : f.storage.geofence? name = .ok (f.storage.tables.geofences.get? name) := by
    simp [Storage.geofence?, Storage.read, Storage.isDown, hup]
  rw [step, hread]
  obtain ⟨row, after, hstep, hrow, hremembers, hhas⟩ | ⟨hstep, hnone⟩ | ⟨later, hstep, hlater, hless⟩ :=
    Fetch.step_cases (.geofenceNotFound name) hfaithful.geofences hsound
  · rw [hstep]
    have hwork := work_withPayloads_le definition (found ++ [row.area]) left
    refine ⟨⟨hremembers, hfaithful.ivLists⟩, rfl, sound_withPayloads _ _, ?_, fun other => ?_, ?_⟩
    · dsimp only
      rw [verdict_withPayloads, verdict, verdictFrom, verdictFrom, Tables.area_cons hrow]
    · dsimp only
      rw [has_withGeofences hhas, wants_withPayloads, Wants, wantsFrom_cons hrow, or_assoc]
    · have hpos := fetch.work_pos
      show (withPayloads definition (found ++ [row.area]) left).work < fetch.work + 3 * left.length + 6
      omega
  · rw [hstep]
    refine ⟨hfaithful, rfl, trivial, ?_, fun row => or_congr Iff.rfl ?_, ?_⟩
    · rw [verdict, verdict, verdictFrom, Tables.area_missing hnone]
    · exact iff_of_false id (not_wantsFrom_missing hnone found left row)
    · rw [work, work]
      omega
  · rw [hstep]
    refine ⟨hfaithful, rfl, hlater, rfl, fun row => Iff.rfl, ?_⟩
    rw [work, work]
    omega

theorem goes_ivList {area : Area} {name : String} {fetch : Fetch IvList}
    (hsound : fetch.Sound f.storage.tables.ivLists name) :
    Goes f definition now (.ivList area name fetch)
      (step f definition now (.ivList area name fetch)).1
      (step f definition now (.ivList area name fetch)).2 := by
  have hread : f.storage.ivList? name = .ok (f.storage.tables.ivLists.get? name) := by
    simp [Storage.ivList?, Storage.read, Storage.isDown, hup]
  rw [step, hread]
  obtain ⟨row, after, hstep, hrow, hremembers, hhas⟩ | ⟨hstep, hnone⟩ | ⟨later, hstep, hlater, hless⟩ :=
    Fetch.step_cases (.ivListNotFound name) hfaithful.ivLists hsound
  · rw [hstep]
    refine ⟨⟨hfaithful.geofences, hremembers⟩, rfl, trivial, ?_, fun other => ?_, ?_⟩
    · rw [verdict, verdict, verdictNamed, hrow]
    · have hstored : f.storage.tables.ivLists.has name = true := by
        rw [Table.has, hrow]
        rfl
      have hwants : (BuildStage.ivList area name fetch).Wants f.storage.tables definition other
          ↔ other = .ivList name := and_iff_left hstored
      dsimp only
      rw [has_withIvLists hhas, hwants, Wants, or_false]
    · have hpos := fetch.work_pos
      rw [work, work]
      omega
  · rw [hstep]
    refine ⟨hfaithful, rfl, trivial, ?_, fun row => or_congr Iff.rfl ?_, ?_⟩
    · rw [verdict, verdict, verdictNamed, hnone]
    · refine iff_of_false id ?_
      rintro ⟨-, hstored⟩
      rw [Table.has, hnone] at hstored
      cases hstored
    · rw [work, work]
      omega
  · rw [hstep]
    refine ⟨hfaithful, rfl, hlater, rfl, fun row => Iff.rfl, ?_⟩
    rw [work, work]
    omega

/-- A step of a build that has not ended. -/
theorem goes_step {stage : BuildStage} (hsound : stage.Sound f.storage.tables)
    (hlive : ∀ answer, stage ≠ .ended answer) :
    Goes f definition now stage (stage.step f definition now).1 (stage.step f definition now).2 := by
  cases stage with
  | geofence found name left fetch => exact goes_geofence hup hfaithful hsound
  | ivList area name fetch => exact goes_ivList hup hfaithful hsound
  | ready area list => exact ⟨hfaithful, rfl, trivial, rfl, fun _ => Iff.rfl, Nat.lt_succ_self 1⟩
  | ended answer => exact absurd rfl (hlive answer)

end BuildStage

end ScanFleet
