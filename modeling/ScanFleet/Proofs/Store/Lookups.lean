import ScanFleet.Proofs.Fleet.Build

set_option autoImplicit false

/-! # Lookups read through to storage

What a lookup is to answer is told by storage alone (`Storage.findGeofence`, `Storage.findIvList`,
`Storage.areaOf`). A call can only have rows remembered that storage shows at that moment
(`Lookups.Learns`). Two things follow. As long as storage shows what it showed, every answer is the one
that storage gives (`Lookups.Fresh.answers_eq`, `Lookups.fresh_after`). And a name under which nothing
was found is looked up in storage again, for as long as storage does not show a row under it
(`Lookups.lookUp_after_error`). -/

namespace ScanFleet

/-! ## Answers of storage -/

namespace Storage

/-- The stored geofence with the given name. -/
def findGeofence (s : Storage) (name : String) : Except FleetError Geofence :=
  demand (.geofenceNotFound name) (s.geofence? name)

/-- The stored IV list with the given name. -/
def findIvList (s : Storage) (name : String) : Except FleetError IvList :=
  demand (.ivListNotFound name) (s.ivList? name)

/-- The payloads of stored geofences, in the order of their names; the first that fails decides. -/
def payloadsOf (s : Storage) : List String → Except FleetError (List Json)
  | [] => .ok []
  | name :: rest =>
    match s.findGeofence name with
    | .error error => .error error
    | .ok geofence => (s.payloadsOf rest).map (geofence.area :: ·)

/-- The area of an instance, decoded from its stored geofences. -/
def areaOf (s : Storage) (i : Instance) : Except FleetError Area :=
  if i.settings.geofences = [] then
    .error (.model (.invalidArea ("instance '" ++ i.name ++ "' references no geofence")))
  else
    match s.payloadsOf i.settings.geofences with
    | .error error => .error error
    | .ok payloads => (Area.decode i.kind.shape payloads).mapError Lookups.areaError

/-- Another storage shows the same geofences and IV lists, and fails to show them alike. Everything else
    may differ. -/
structure SameReads (s t : Storage) : Prop where
  geofence? : t.geofence? = s.geofence?
  ivList? : t.ivList? = s.ivList?

/-- Another storage shows every geofence and every IV list that this one shows. It may show more. -/
structure StillShows (s t : Storage) : Prop where
  geofence : ∀ name row, s.geofence? name = .ok (some row) → t.geofence? name = .ok (some row)
  ivList : ∀ name row, s.ivList? name = .ok (some row) → t.ivList? name = .ok (some row)

variable {s t : Storage}

theorem SameReads.symm (h : s.SameReads t) : t.SameReads s := ⟨h.geofence?.symm, h.ivList?.symm⟩

/-- A row that was demanded and found is stored. -/
theorem eq_some_of_demand {α : Type} {missing : FleetError} {access : StorageAccess}
    {stored : Option α} {row : α} (h : demand missing (s.read access stored) = .ok row) :
    stored = some row := by
  unfold demand at h
  split at h
  · cases h
  · cases h
  · rename_i found hfound
    obtain rfl := Except.ok.inj h
    exact eq_of_read hfound

/-- A row that is stored is found when it is demanded, unless storage is down. -/
theorem demand_eq_of_stored {α : Type} {access : StorageAccess} (hup : s.isDown access = false)
    {stored : Option α} {row : α} (hstored : stored = some row) (missing : FleetError) :
    demand missing (s.read access stored) = .ok row := by
  rw [read, hup, hstored]
  rfl

end Storage

namespace Lookups

/-! ## Rows that are remembered -/

section Remembered

variable {α : Type} [Keyed α String] {remembered later : Table α}
  {read : String → Except FleetError (Option α)}

/-- What is remembered under a name, if anything, is what reading shows. -/
def FreshAt (read : String → Except FleetError (Option α)) (remembered : Table α) (name : String) :
    Prop :=
  ∀ row, remembered.get? name = some row → read name = .ok (some row)

/-- A row that is remembered later was remembered before, or it is what reading shows. -/
def LearnsFrom (read : String → Except FleetError (Option α)) (remembered later : Table α) : Prop :=
  ∀ name row, later.get? name = some row →
    remembered.get? name = some row ∨ read name = .ok (some row)

theorem freshAt_of_none {name : String} (h : remembered.get? name = none) :
    FreshAt read remembered name := by
  intro row hrow
  rw [h] at hrow
  cases hrow

theorem FreshAt.of_learns {name : String} (h : FreshAt read remembered name)
    (hlearns : LearnsFrom read remembered later) : FreshAt read later name := by
  intro row hrow
  rcases hlearns name row hrow with hold | hread
  · exact h row hold
  · exact hread

/-- A look-up under a name where nothing stale is remembered answers what storage shows. -/
theorem lookUp_of_freshAt {name : String} (h : FreshAt read remembered name)
    (missing : String → FleetError) :
    (lookUp remembered read missing name).1 = Storage.demand (missing name) (read name) := by
  obtain ⟨row, hget, heq⟩ | ⟨row, -, hread, heq⟩ | ⟨error, -, hfails, heq⟩ :=
    lookUp_cases remembered read missing name
  · rw [heq, h row hget]
    rfl
  · rw [heq, hread]
    rfl
  · rw [heq, hfails]

/-- A look-up that fails leaves everything as it was, with nothing under the name. -/
theorem lookUp_of_error {missing : String → FleetError} {name : String} {error : FleetError}
    (h : (lookUp remembered read missing name).1 = .error error) :
    (lookUp remembered read missing name).2 = remembered ∧ remembered.get? name = none := by
  obtain ⟨row, -, heq⟩ | ⟨row, -, -, heq⟩ | ⟨error, hnone, -, heq⟩ :=
    lookUp_cases remembered read missing name
  · rw [heq] at h
    cases h
  · rw [heq] at h
    cases h
  · rw [heq]
    exact ⟨rfl, hnone⟩

theorem learnsFrom_empty : LearnsFrom read remembered .empty := by
  intro name row hrow
  rw [Table.get?_empty] at hrow
  cases hrow

theorem learnsFrom_erase (name : String) : LearnsFrom read remembered (remembered.erase name) := by
  intro other row hrow
  rw [Table.get?_erase] at hrow
  split at hrow
  · cases hrow
  · exact .inl hrow

theorem learnsFrom_insert {row : α} (h : read (key row) = .ok (some row)) :
    LearnsFrom read remembered (remembered.insert row) := by
  intro name found hfound
  rw [Table.get?_insert] at hfound
  split at hfound
  · rename_i hkey
    obtain rfl := Option.some.inj hfound
    exact .inr (hkey ▸ h)
  · exact .inl hfound

theorem learnsFrom_lookUp (hkeys : ∀ name row, read name = .ok (some row) → key row = name)
    (missing : String → FleetError) (name : String) :
    LearnsFrom read remembered (lookUp remembered read missing name).2 := by
  obtain ⟨row, -, heq⟩ | ⟨row, -, hread, heq⟩ | ⟨error, -, -, heq⟩ :=
    lookUp_cases remembered read missing name
  · rw [heq]
    exact fun _ _ => .inl
  · obtain rfl := hkeys name row hread
    rw [heq]
    exact learnsFrom_insert hread
  · rw [heq]
    exact fun _ _ => .inl

end Remembered

/-- Lookups come to remember rows that storage shows, and no others. -/
structure Learns (storage : Storage) (l m : Lookups) : Prop where
  geofences : LearnsFrom storage.geofence? l.geofences m.geofences
  ivLists : LearnsFrom storage.ivList? l.ivLists m.ivLists

variable {storage : Storage} {l m n : Lookups}

theorem Learns.refl : Learns storage l l := ⟨fun _ _ => .inl, fun _ _ => .inl⟩

theorem Learns.trans (h : Learns storage l m) (h' : Learns storage m n) : Learns storage l n where
  geofences name row hrow := by
    rcases h'.geofences name row hrow with hold | hread
    · exact h.geofences name row hold
    · exact .inr hread
  ivLists name row hrow := by
    rcases h'.ivLists name row hrow with hold | hread
    · exact h.ivLists name row hold
    · exact .inr hread

theorem learns_geofence (l : Lookups) (storage : Storage) (name : String) :
    Learns storage l (l.geofence storage name).2 :=
  ⟨learnsFrom_lookUp (fun _ _ => storage.key_of_geofence?) _ name, fun _ _ => .inl⟩

theorem learns_ivList (l : Lookups) (storage : Storage) (name : String) :
    Learns storage l (l.ivList storage name).2 :=
  ⟨fun _ _ => .inl, learnsFrom_lookUp (fun _ _ => storage.key_of_ivList?) _ name⟩

theorem learns_payloads (l : Lookups) (storage : Storage) (names : List String) :
    Learns storage l (l.payloads storage names).2 := by
  induction names generalizing l with
  | nil => exact .refl
  | cons name rest ih =>
    have hfirst := l.learns_geofence storage name
    rw [payloads]
    split
    · rename_i h
      rwa [h] at hfirst
    · rename_i later h
      rw [h] at hfirst
      have hrest := hfirst.trans (ih later)
      split
      · rename_i hpayloads
        rwa [hpayloads] at hrest
      · rename_i hpayloads
        rwa [hpayloads] at hrest

theorem learns_area (l : Lookups) (storage : Storage) (i : Instance) :
    Learns storage l (l.area storage i).2 := by
  have hpayloads := l.learns_payloads storage i.settings.geofences
  unfold area
  split
  · exact .refl
  · split
    · rename_i h
      rwa [h] at hpayloads
    · rename_i h
      rwa [h] at hpayloads

/-- Forgetting teaches nothing. -/
theorem learns_forgetGeofence (l : Lookups) (storage : Storage) (name : String) :
    Learns storage l (l.forgetGeofence name) :=
  ⟨learnsFrom_erase name, fun _ _ => .inl⟩

theorem learns_forgetIvList (l : Lookups) (storage : Storage) (name : String) :
    Learns storage l (l.forgetIvList name) :=
  ⟨fun _ _ => .inl, learnsFrom_erase name⟩

theorem learns_forgetGeofences (l : Lookups) (storage : Storage) (names : List String) :
    Learns storage l (names.foldl forgetGeofence l) := by
  induction names generalizing l with
  | nil => exact .refl
  | cons name rest ih => exact (l.learns_forgetGeofence storage name).trans (ih _)

theorem learns_forget (l : Lookups) (storage : Storage) (i : Instance) :
    Learns storage l (l.forget i) := by
  have hgeofences := l.learns_forgetGeofences storage i.settings.geofences
  unfold forget
  dsimp only
  split
  · exact hgeofences.trans (learns_forgetIvList _ storage _)
  · exact hgeofences

/-! ## Answers -/

theorem geofence_eq {name : String} (h : FreshAt storage.geofence? l.geofences name) :
    (l.geofence storage name).1 = storage.findGeofence name :=
  lookUp_of_freshAt h _

theorem ivList_eq {name : String} (h : FreshAt storage.ivList? l.ivLists name) :
    (l.ivList storage name).1 = storage.findIvList name :=
  lookUp_of_freshAt h _

theorem payloads_eq {names : List String}
    (h : ∀ name ∈ names, FreshAt storage.geofence? l.geofences name) :
    (l.payloads storage names).1 = storage.payloadsOf names := by
  induction names generalizing l with
  | nil => rfl
  | cons name rest ih =>
    have hlearns := (l.learns_geofence storage name).geofences
    have hrest : ∀ other ∈ rest,
        FreshAt storage.geofence? (l.geofence storage name).2.geofences other :=
      fun other hother => (h other (List.mem_cons_of_mem name hother)).of_learns hlearns
    rw [payloads_fst_cons, geofence_eq (h name List.mem_cons_self), ih hrest]
    rfl

/-- An area is decoded from what storage shows, if nothing stale is remembered under its names. -/
theorem area_eq {i : Instance}
    (h : ∀ name ∈ i.settings.geofences, FreshAt storage.geofence? l.geofences name) :
    (l.area storage i).1 = storage.areaOf i := by
  have hpayloads := payloads_eq h
  unfold area Storage.areaOf
  split
  · rfl
  · rw [← hpayloads]
    cases l.payloads storage i.settings.geofences with
    | mk answer later =>
      cases answer with
      | error error => rfl
      | ok payloads => rfl

end Lookups

/-! ## Calls -/

/-- What can be asked of lookups. -/
inductive LookupCall where
  | geofence (name : String)
  | ivList (name : String)
  | area (i : Instance)
  | forgetGeofence (name : String)
  | forgetIvList (name : String)
  | forget (i : Instance)
  | refresh

/-- What lookups answer. -/
inductive LookupAnswer where
  | geofence (answer : Except FleetError Geofence)
  | ivList (answer : Except FleetError IvList)
  | area (answer : Except FleetError Area)
  | done

/-- The answer to a call, told by storage alone. -/
def Storage.answer (s : Storage) : LookupCall → LookupAnswer
  | .geofence name => .geofence (s.findGeofence name)
  | .ivList name => .ivList (s.findIvList name)
  | .area i => .area (s.areaOf i)
  | _ => .done

namespace Lookups

/-- The answer to a call, and the lookups after it. -/
def call (l : Lookups) (storage : Storage) : LookupCall → LookupAnswer × Lookups
  | .geofence name => (l.geofence storage name).map .geofence id
  | .ivList name => (l.ivList storage name).map .ivList id
  | .area i => (l.area storage i).map .area id
  | .forgetGeofence name => (.done, l.forgetGeofence name)
  | .forgetIvList name => (.done, l.forgetIvList name)
  | .forget i => (.done, l.forget i)
  | .refresh => (.done, l.refresh)

/-- The answers to calls, each made at the storage of its moment. -/
def answers (l : Lookups) : List (Storage × LookupCall) → List LookupAnswer
  | [] => []
  | (storage, call) :: rest => (l.call storage call).1 :: (l.call storage call).2.answers rest

/-- The lookups after calls. -/
def after (l : Lookups) (calls : List (Storage × LookupCall)) : Lookups :=
  calls.foldl (fun l c => (l.call c.1 c.2).2) l

variable {storage : Storage} {l : Lookups}

theorem learns_call (l : Lookups) (storage : Storage) (call : LookupCall) :
    Learns storage l (l.call storage call).2 := by
  cases call with
  | geofence name => exact l.learns_geofence storage name
  | ivList name => exact l.learns_ivList storage name
  | area i => exact l.learns_area storage i
  | forgetGeofence name => exact l.learns_forgetGeofence storage name
  | forgetIvList name => exact l.learns_forgetIvList storage name
  | forget i => exact l.learns_forget storage i
  | refresh => exact ⟨learnsFrom_empty, learnsFrom_empty⟩

/-- Nothing is remembered that storage does not show. -/
structure Fresh (storage : Storage) (l : Lookups) : Prop where
  geofences : ∀ name, FreshAt storage.geofence? l.geofences name
  ivLists : ∀ name, FreshAt storage.ivList? l.ivLists name

theorem fresh_of_empty (storage : Storage) (zones : ZoneTable) : Fresh storage { zones } where
  geofences name := freshAt_of_none (Table.get?_empty name)
  ivLists name := freshAt_of_none (Table.get?_empty name)

theorem Fresh.call_fst (h : Fresh storage l) (call : LookupCall) :
    (l.call storage call).1 = storage.answer call := by
  cases call with
  | geofence name => exact congrArg LookupAnswer.geofence (geofence_eq (h.geofences name))
  | ivList name => exact congrArg LookupAnswer.ivList (ivList_eq (h.ivLists name))
  | area i => exact congrArg LookupAnswer.area (area_eq fun name _ => h.geofences name)
  | forgetGeofence name => rfl
  | forgetIvList name => rfl
  | forget i => rfl
  | refresh => rfl

theorem Fresh.call_snd (h : Fresh storage l) (call : LookupCall) :
    Fresh storage (l.call storage call).2 where
  geofences name := (h.geofences name).of_learns (l.learns_call storage call).geofences
  ivLists name := (h.ivLists name).of_learns (l.learns_call storage call).ivLists

theorem Fresh.of_sameReads (h : Fresh storage l) {other : Storage} (hsame : storage.SameReads other) :
    Fresh other l where
  geofences := by
    rw [hsame.geofence?]
    exact h.geofences
  ivLists := by
    rw [hsame.ivList?]
    exact h.ivLists

/-- As long as storage shows the same geofences and IV lists, answers are those of storage. -/
theorem Fresh.answers_eq (h : Fresh storage l) {calls : List (Storage × LookupCall)}
    (hsame : ∀ c ∈ calls, storage.SameReads c.1) :
    l.answers calls = calls.map fun c => c.1.answer c.2 := by
  induction calls generalizing l with
  | nil => rfl
  | cons first rest ih =>
    have hnow : storage.SameReads first.1 := hsame first List.mem_cons_self
    have hfresh := h.of_sameReads hnow
    have hrest := ih ((hfresh.call_snd first.2).of_sameReads hnow.symm)
      fun c hc => hsame c (List.mem_cons_of_mem first hc)
    rw [answers, List.map_cons, hfresh.call_fst, hrest]

section Remembered

variable {α : Type} [Keyed α String] {part : Lookups → Table α}
  {read : Storage → String → Except FleetError (Option α)}
  (hlearns : ∀ l storage call, LearnsFrom (read storage) (part l) (part (l.call storage call).2))

include hlearns

/-- A row that is remembered after calls was remembered before, or storage showed it at a call. -/
theorem remembered_after {calls : List (Storage × LookupCall)} {name : String} {row : α}
    (h : (part (l.after calls)).get? name = some row) :
    (part l).get? name = some row ∨ ∃ c ∈ calls, read c.1 name = .ok (some row) := by
  induction calls generalizing l with
  | nil => exact .inl h
  | cons first rest ih =>
    rcases ih h with hlater | ⟨c, hc, hread⟩
    · rcases hlearns l first.1 first.2 name row hlater with hold | hread
      · exact .inl hold
      · exact .inr ⟨first, List.mem_cons_self, hread⟩
    · exact .inr ⟨c, List.mem_cons_of_mem first hc, hread⟩

theorem none_after {name : String} (h : (part l).get? name = none)
    {calls : List (Storage × LookupCall)}
    (hmissing : ∀ c ∈ calls, ∀ row, read c.1 name ≠ .ok (some row)) :
    (part (l.after calls)).get? name = none := by
  rw [Option.eq_none_iff_forall_ne_some]
  intro row hrow
  rcases remembered_after hlearns hrow with hold | ⟨c, hc, hread⟩
  · rw [h] at hold
    cases hold
  · exact hmissing c hc row hread

/-- Neither a miss nor an error is remembered: after a look-up that failed, the row is looked up in
    storage again, unless storage has shown a row under the name meanwhile. -/
theorem lookUp_after_error {missing : String → FleetError} {name : String} {error : FleetError}
    (h : (lookUp (part l) (read storage) missing name).1 = .error error)
    {calls : List (Storage × LookupCall)}
    (hmissing : ∀ c ∈ calls, ∀ row, read c.1 name ≠ .ok (some row)) (later : Storage) :
    (lookUp (part (l.after calls)) (read later) missing name).1
      = Storage.demand (missing name) (read later name) :=
  lookUp_of_freshAt (freshAt_of_none (none_after hlearns (lookUp_of_error h).2 hmissing)) missing

end Remembered

/-- Lookups that remembered nothing at first are fresh as long as storage shows what it showed. -/
theorem fresh_after (zones : ZoneTable) {calls : List (Storage × LookupCall)}
    (h : ∀ c ∈ calls, c.1.StillShows storage) :
    Fresh storage (({ zones } : Lookups).after calls) where
  geofences name row hrow := by
    have hlearns := fun l storage call => (learns_call l storage call).geofences
    rcases remembered_after hlearns hrow with hold | ⟨c, hc, hread⟩
    · rw [Table.get?_empty] at hold
      cases hold
    · exact (h c hc).geofence name row hread
  ivLists name row hrow := by
    have hlearns := fun l storage call => (learns_call l storage call).ivLists
    rcases remembered_after hlearns hrow with hold | ⟨c, hc, hread⟩
    · rw [Table.get?_empty] at hold
      cases hold
    · exact (h c hc).ivList name row hread

theorem geofence_after_error {name : String} {error : FleetError}
    (h : (l.geofence storage name).1 = .error error) {calls : List (Storage × LookupCall)}
    (hmissing : ∀ c ∈ calls, ∀ row, c.1.geofence? name ≠ .ok (some row)) (later : Storage) :
    (((l.geofence storage name).2.after calls).geofence later name).1 = later.findGeofence name := by
  have hsame : (l.geofence storage name).2 = l := by
    rw [geofence, Prod.map_snd, (lookUp_of_error h).1]
  rw [hsame]
  exact lookUp_after_error (fun l storage call => (learns_call l storage call).geofences) h hmissing
    later

theorem ivList_after_error {name : String} {error : FleetError}
    (h : (l.ivList storage name).1 = .error error) {calls : List (Storage × LookupCall)}
    (hmissing : ∀ c ∈ calls, ∀ row, c.1.ivList? name ≠ .ok (some row)) (later : Storage) :
    (((l.ivList storage name).2.after calls).ivList later name).1 = later.findIvList name := by
  have hsame : (l.ivList storage name).2 = l := by
    rw [ivList, Prod.map_snd, (lookUp_of_error h).1]
  rw [hsame]
  exact lookUp_after_error (fun l storage call => (learns_call l storage call).ivLists) h hmissing
    later

end Lookups

end ScanFleet
