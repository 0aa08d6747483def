import ScanFleet.Fleet.Build

set_option autoImplicit false

/-! # Which jobs can be built

A lookup remembers a row that it read, and answers later as if it had read the row again. So building
one job does not decide over another: whether the job of a definition can be built
(`Fleet.Builds`) depends on the storage and the lookups as they are before the first of several jobs
is built. -/

namespace ScanFleet

/-! ## Lookups -/

namespace Storage

/-- A row that was asked for, or why there is none. -/
def demand {α : Type} (missing : FleetError) : Except FleetError (Option α) → Except FleetError α
  | .error error => .error error
  | .ok none => .error missing
  | .ok (some row) => .ok row

variable {s : Storage} {name : String}

/-- A geofence is stored under its name. -/
theorem key_of_geofence? {row : Geofence} (h : s.geofence? name = .ok (some row)) : key row = name :=
  Table.key_of_get? (eq_of_read h)

/-- An IV list is stored under its name. -/
theorem key_of_ivList? {row : IvList} (h : s.ivList? name = .ok (some row)) : key row = name :=
  Table.key_of_get? (eq_of_read h)

end Storage

namespace Lookups

section LookUp

variable {α : Type} [Keyed α String] {remembered : Table α}
  {read : String → Except FleetError (Option α)} {missing : String → FleetError}

/-- A look-up finds what is remembered, or has what it reads remembered, or it fails and leaves
    everything as it was, with nothing under the name. -/
theorem lookUp_cases (remembered : Table α) (read : String → Except FleetError (Option α))
    (missing : String → FleetError) (name : String) :
    (∃ row, remembered.get? name = some row
        ∧ lookUp remembered read missing name = (.ok row, remembered))
      ∨ (∃ row, remembered.get? name = none ∧ read name = .ok (some row)
        ∧ lookUp remembered read missing name = (.ok row, remembered.insert row))
      ∨ ∃ error, remembered.get? name = none ∧ Storage.demand (missing name) (read name) = .error error
        ∧ lookUp remembered read missing name = (.error error, remembered) := by
  unfold lookUp Storage.demand
  cases remembered.get? name with
  | some row => exact .inl ⟨row, rfl, rfl⟩
  | none =>
    right
    cases read name with
    | error error => exact .inr ⟨error, rfl, rfl, rfl⟩
    | ok found =>
      cases found with
      | none => exact .inr ⟨_, rfl, rfl, rfl⟩
      | some row => exact .inl ⟨row, rfl, rfl, rfl⟩

/-- A look-up leaves the answers of all others as they were. -/
theorem lookUp_after_lookUp (hkeys : ∀ name row, read name = .ok (some row) → key row = name)
    (name other : String) :
    (lookUp (lookUp remembered read missing name).2 read missing other).1
      = (lookUp remembered read missing other).1 := by
  obtain ⟨row, -, heq⟩ | ⟨row, hnew, hread, heq⟩ | ⟨error, -, -, heq⟩ :=
    lookUp_cases remembered read missing name
  · rw [heq]
  · obtain rfl := hkeys name row hread
    rw [heq]
    unfold lookUp
    rw [Table.get?_insert]
    by_cases hother : key row = other
    · subst hother
      rw [if_pos rfl, hnew, hread]
    · rw [if_neg hother]
      split
      · rfl
      · split
        · rfl
        · rfl
        · rfl
  · rw [heq]

end LookUp

/-- Two lookups that answer alike over a storage. -/
structure Alike (storage : Storage) (l m : Lookups) : Prop where
  geofence : ∀ name, (m.geofence storage name).1 = (l.geofence storage name).1
  ivList : ∀ name, (m.ivList storage name).1 = (l.ivList storage name).1
  zones : m.zones = l.zones

variable {storage : Storage} {l m n : Lookups}

theorem Alike.refl : Alike storage l l := ⟨fun _ => rfl, fun _ => rfl, rfl⟩

theorem Alike.symm (h : Alike storage l m) : Alike storage m l where
  geofence name := (h.geofence name).symm
  ivList name := (h.ivList name).symm
  zones := h.zones.symm

theorem Alike.trans (h : Alike storage l m) (h' : Alike storage m n) : Alike storage l n where
  geofence name := (h'.geofence name).trans (h.geofence name)
  ivList name := (h'.ivList name).trans (h.ivList name)
  zones := h'.zones.trans h.zones

theorem alike_geofence (l : Lookups) (storage : Storage) (name : String) :
    Alike storage l (l.geofence storage name).2 where
  geofence := lookUp_after_lookUp (fun _ _ => storage.key_of_geofence?) name
  ivList _ := rfl
  zones := rfl

theorem alike_ivList (l : Lookups) (storage : Storage) (name : String) :
    Alike storage l (l.ivList storage name).2 where
  geofence _ := rfl
  ivList := lookUp_after_lookUp (fun _ _ => storage.key_of_ivList?) name
  zones := rfl

/-- The first payload that fails decides, and it is looked up first. -/
theorem payloads_fst_cons (l : Lookups) (storage : Storage) (name : String) (rest : List String) :
    (l.payloads storage (name :: rest)).1 =
      match (l.geofence storage name).1 with
      | .error error => .error error
      | .ok geofence =>
        ((l.geofence storage name).2.payloads storage rest).1.map (geofence.area :: ·) := by
  rw [payloads]
  split
  · rename_i h
    rw [h]
  · rename_i h
    rw [h]
    dsimp only
    split
    · rename_i hrest
      rw [hrest]
      rfl
    · rename_i hrest
      rw [hrest]
      rfl

theorem alike_payloads (l : Lookups) (storage : Storage) (names : List String) :
    Alike storage l (l.payloads storage names).2 := by
  induction names generalizing l with
  | nil => exact .refl
  | cons name rest ih =>
    have hfirst := l.alike_geofence storage name
    rw [payloads]
    split
    · rename_i h
      rwa [h] at hfirst
    · rename_i later h
      rw [h] at hfirst
      have hrest := hfirst.trans (ih later)
      split
      · rename_i hpayloads
        rwa [hpayloads] at hrest
      · rename_i hpayloads
        rwa [hpayloads] at hrest

theorem Alike.payloads (h : Alike storage l m) (names : List String) :
    (m.payloads storage names).1 = (l.payloads storage names).1 := by
  induction names generalizing l m with
  | nil => rfl
  | cons name rest ih =>
    have hafter : Alike storage (l.geofence storage name).2 (m.geofence storage name).2 :=
      (l.alike_geofence storage name).symm.trans (h.trans (m.alike_geofence storage name))
    -- the lookups answer alike after their first answers as well
    rw [payloads_fst_cons, payloads_fst_cons, h.geofence, ih hafter]

theorem alike_area (l : Lookups) (storage : Storage) (i : Instance) :
    Alike storage l (l.area storage i).2 := by
  have hpayloads := l.alike_payloads storage i.settings.geofences
  unfold area
  split
  · exact .refl
  · split
    · rename_i h
      rwa [h] at hpayloads
    · rename_i h
      rwa [h] at hpayloads

theorem Alike.area (h : Alike storage l m) (i : Instance) :
    (m.area storage i).1 = (l.area storage i).1 := by
  have hpayloads := h.payloads i.settings.geofences
  unfold Lookups.area
  split
  · rfl
  · cases hm : m.payloads storage i.settings.geofences with
    | mk answer later =>
      cases hl : l.payloads storage i.settings.geofences with
      | mk answer' later' =>
        rw [hm, hl] at hpayloads
        obtain rfl : answer = answer' := hpayloads
        cases answer with
        | error error => rfl
        | ok payloads => rfl

theorem alike_ivListOf (l : Lookups) (storage : Storage) (i : Instance) :
    Alike storage l (l.ivListOf storage i).2 := by
  unfold ivListOf
  split
  · exact .refl
  · exact l.alike_ivList storage _

theorem Alike.ivListOf (h : Alike storage l m) (i : Instance) :
    (m.ivListOf storage i).1 = (l.ivListOf storage i).1 := by
  unfold Lookups.ivListOf
  split
  · rfl
  · exact congrArg (Except.map some) (h.ivList _)

end Lookups

/-! ## Plans and jobs -/

namespace Fleet

/-- Building changes the lookups of a fleet and nothing else. -/
theorem build_eq (f : Fleet) (definition : Instance) (now : Instant) :
    f.build definition now =
      (match (f.plan definition).1 with
        | .error error => .error (.failed error)
        | .ok plan => (f.roster.build plan now).mapError BuildFault.halt,
        { f with lookups := (f.plan definition).2 }) := rfl

/-- The job of a definition can be built. -/
def Builds (f : Fleet) (definition : Instance) (now : Instant) : Prop :=
  ∃ job, (f.build definition now).1 = .ok job

theorem alike_plan (f : Fleet) (definition : Instance) :
    Lookups.Alike f.storage f.lookups (f.plan definition).2 := by
  have harea := f.lookups.alike_area f.storage definition
  unfold plan
  split
  · rename_i h
    rwa [h] at harea
  · rename_i later h
    rw [h] at harea
    have hlist := harea.trans (later.alike_ivListOf f.storage definition)
    split
    · rename_i hiv
      rwa [hiv] at hlist
    · rename_i hiv
      rwa [hiv] at hlist

/-- The plan of a job depends on the fleet by its storage, its lookups and its queue limit. -/
theorem plan_congr {f g : Fleet} (hstorage : g.storage = f.storage)
    (hlookups : Lookups.Alike f.storage f.lookups g.lookups) (hlimit : g.queueLimit = f.queueLimit)
    (definition : Instance) : (g.plan definition).1 = (f.plan definition).1 := by
  have harea := hlookups.area definition
  have hafter := ((f.lookups.alike_area f.storage definition).symm.trans hlookups).trans
    (g.lookups.alike_area f.storage definition)
  unfold plan
  rw [hstorage, hlimit]
  cases hg : g.lookups.area f.storage definition with
  | mk answer later =>
    cases hf : f.lookups.area f.storage definition with
    | mk answer' later' =>
      rw [hg, hf] at harea hafter
      obtain rfl : answer = answer' := harea
      cases answer with
      | error error => rfl
      | ok area =>
        have hlist := hafter.ivListOf definition
        have hend := ((later'.alike_ivListOf f.storage definition).symm.trans hafter).trans
          (later.alike_ivListOf f.storage definition)
        dsimp only at hlist hend ⊢
        cases hgl : later.ivListOf f.storage definition with
        | mk list final =>
          cases hfl : later'.ivListOf f.storage definition with
          | mk list' final' =>
            rw [hgl, hfl] at hlist hend
            obtain rfl : list = list' := hlist
            cases list with
            | error error => rfl
            | ok list =>
              have hzones : final.zones = final'.zones := hend.zones
              simp only [Lookups.offset?, hzones]

theorem builds_congr {f g : Fleet} (hstorage : g.storage = f.storage)
    (hlookups : Lookups.Alike f.storage f.lookups g.lookups) (hlimit : g.queueLimit = f.queueLimit)
    (hroster : g.roster = f.roster) {definition : Instance} {now : Instant} :
    g.Builds definition now ↔ f.Builds definition now := by
  rw [Builds, Builds, build_eq, build_eq, plan_congr hstorage hlookups hlimit, hroster]

end Fleet

end ScanFleet
