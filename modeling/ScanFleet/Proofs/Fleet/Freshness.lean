import ScanFleet.Proofs.Fleet.Equipment
import ScanFleet.Proofs.Store.Lookups

set_option autoImplicit false

/-! # Replacements read storage again

A replacement forgets what is remembered for the old definition and for the new one before it builds the
job. So whatever was remembered before, and however storage was edited meanwhile, a replacement that
succeeds has built the job from the geofences and the IV list that are stored at that moment
(`Fleet.equips_of_replaceInstance`). What lookups promise between replacements and what a replacement
promises is put together in `lookups_read_through`. -/

namespace ScanFleet

namespace Storage

variable {s : Storage}

/-- Payloads that storage shows are stored. -/
theorem payloads_of_payloadsOf {names : List String} {payloads : List Json}
    (h : s.payloadsOf names = .ok payloads) : s.tables.payloads names = .ok payloads := by
  induction names generalizing payloads with
  | nil => exact h
  | cons name rest ih =>
    rw [payloadsOf] at h
    split at h
    · cases h
    · rename_i row hrow
      have hstored : s.tables.geofences.get? name = some row := eq_some_of_demand hrow
      cases hrest : s.payloadsOf rest with
      | error error =>
        rw [hrest] at h
        cases h
      | ok others =>
        rw [hrest] at h
        rw [Tables.payloads, hstored]
        dsimp only
        rw [ih hrest]
        exact h

theorem area_of_areaOf {i : Instance} {area : Area} (h : s.areaOf i = .ok area) :
    s.tables.area i [] i.settings.geofences = .ok area := by
  unfold areaOf at h
  split at h
  · cases h
  · rw [Tables.area]
    split at h
    · cases h
    · rename_i payloads hpayloads
      rw [payloads_of_payloadsOf hpayloads]
      exact h

/-- Writing rows of devices changes the devices that are stored and nothing else. -/
theorem writeAll_eq (s : Storage) (rows : List Device) :
    (s.writeAll rows).2 =
      { s with tables := { s.tables with devices := (s.writeAll rows).2.tables.devices } } := by
  induction rows generalizing s with
  | nil => rfl
  | cons d rest ih =>
    rw [writeAll]
    split
    · rename_i storage hdone
      obtain rfl : storage =
          { s with tables := { s.tables with devices := s.tables.devices.insert d } } := by
        unfold write at hdone
        split at hdone
        · cases hdone
        · split at hdone
          · cases hdone
          · exact (Write.done.inj hdone).symm
      exact ih _
    · exact ih s
    · rfl

end Storage

namespace Lookups

variable {storage : Storage} {l : Lookups} {i : Instance}

/-! ## Forgetting -/

theorem get?_forgetGeofences (l : Lookups) (names : List String) (name : String) :
    (names.foldl forgetGeofence l).geofences.get? name
      = if name ∈ names then none else l.geofences.get? name := by
  induction names generalizing l with
  | nil => simp
  | cons first rest ih =>
    have herased : (l.forgetGeofence first).geofences.get? name
        = if first = name then none else l.geofences.get? name := l.geofences.get?_erase first name
    rw [List.foldl_cons, ih, herased]
    by_cases hname : name ∈ rest
    · simp [hname]
    · simp [hname, eq_comm]

theorem zones_forgetGeofences (l : Lookups) (names : List String) :
    (names.foldl forgetGeofence l).zones = l.zones := by
  induction names generalizing l with
  | nil => rfl
  | cons first rest ih => exact ih (l.forgetGeofence first)

theorem zones_forget (l : Lookups) (i : Instance) : (l.forget i).zones = l.zones := by
  have hzones := l.zones_forgetGeofences i.settings.geofences
  unfold forget
  dsimp only
  split
  · exact hzones
  · exact hzones

theorem zones_forgetAll (l : Lookups) (instances : List Instance) :
    (instances.foldl forget l).zones = l.zones := by
  induction instances generalizing l with
  | nil => rfl
  | cons first rest ih => exact (ih (l.forget first)).trans (l.zones_forget first)

/-- Nothing stale is remembered under the names that an instance needs. -/
structure FreshFor (storage : Storage) (l : Lookups) (i : Instance) : Prop where
  geofences : ∀ name ∈ i.settings.geofences, FreshAt storage.geofence? l.geofences name
  ivList : ∀ name, i.settings.ivList = some name → FreshAt storage.ivList? l.ivLists name

/-- What is forgotten for an instance cannot be stale for it, whatever storage shows. -/
theorem freshFor_forget (l : Lookups) (storage : Storage) (i : Instance) :
    FreshFor storage (l.forget i) i where
  geofences name hname := by
    have hforgotten := l.get?_forgetGeofences i.settings.geofences name
    rw [if_pos hname] at hforgotten
    refine freshAt_of_none ?_
    unfold forget
    dsimp only
    split
    · exact hforgotten
    · exact hforgotten
  ivList name hname := by
    refine freshAt_of_none ?_
    unfold forget
    dsimp only
    rw [hname]
    exact (Table.get?_erase _ name name).trans (if_pos rfl)

/-- An IV list that is found where nothing stale is remembered is stored. -/
theorem stored_of_ivListOf
    (h : ∀ name, i.settings.ivList = some name → FreshAt storage.ivList? l.ivLists name)
    {list : Option IvList} (hlist : (l.ivListOf storage i).1 = .ok list) :
    i.settings.ivList.map storage.tables.ivLists.get? = list.map some := by
  unfold ivListOf at hlist
  cases hnamed : i.settings.ivList with
  | none =>
    rw [hnamed] at hlist
    obtain rfl := Except.ok.inj hlist
    rfl
  | some name =>
    rw [hnamed] at hlist
    have hfound : (storage.findIvList name).map some = .ok list := by
      rw [← ivList_eq (h name hnamed)]
      exact hlist
    cases hrow : storage.findIvList name with
    | error error =>
      rw [hrow] at hfound
      cases hfound
    | ok row =>
      rw [hrow] at hfound
      obtain rfl := Except.ok.inj hfound
      exact congrArg some (Storage.eq_some_of_demand hrow)

end Lookups

namespace Fleet

variable {f after : Fleet} {definition : Instance} {plan : JobPlan} {old : String} {now : Instant}

/-! ## Plans -/

/-- The plan of a definition for which nothing stale is remembered is made from what is stored. -/
theorem equips_of_plan (h : f.lookups.FreshFor f.storage definition)
    (hplan : (f.plan definition).1 = .ok plan) : f.Equips definition plan := by
  have harea := Lookups.area_eq h.geofences
  have hlearns := f.lookups.learns_area f.storage definition
  have halike := f.lookups.alike_area f.storage definition
  unfold Fleet.plan at hplan
  split at hplan
  · cases hplan
  · rename_i area later hfound
    rw [hfound] at harea hlearns halike
    have hstored := Tables.area_ok_iff.1 (Storage.area_of_areaOf harea.symm)
    have hzones := halike.trans (later.alike_ivListOf f.storage definition)
    split at hplan
    · cases hplan
    · rename_i list last hlist
      rw [hlist] at hzones
      obtain rfl := Except.ok.inj hplan
      have hfresh : ∀ name, definition.settings.ivList = some name →
          Lookups.FreshAt f.storage.ivList? later.ivLists name :=
        fun name hname => (h.ivList name hname).of_learns hlearns.ivLists
      have hivList := Lookups.stored_of_ivListOf hfresh (congrArg Prod.fst hlist)
      exact ⟨rfl, hstored, hivList, by rw [Lookups.offset?, Lookups.offset?, hzones.zones]⟩

/-! ## Replacements -/

/-- The lookups when all is forgotten that is remembered for an instance and for the definition that
    takes its place. -/
def forgotten (f : Fleet) (definition : Instance) (old : String) : Lookups :=
  ((f.definitions.get? old).toList.foldl Lookups.forget f.lookups).forget definition

/-- A replacement that succeeds has come to build a job from lookups that forgot, over a storage in which
    no more than devices changed. -/
theorem replaceInstance_ok (h : f.replaceInstance definition old now = (.ok (), after)) :
    ∃ (devices : Table Device) (retired : List Job),
      ({ f.replaced definition old with
          storage := { f.storage with tables := { f.storage.tables with devices } }
          lookups := f.forgotten definition old
          retired } : Fleet).install definition now = (.ok (), after) := by
  unfold replaceInstance at h
  dsimp only [withdraw] at h
  have hstorage := f.storage.writeAll_eq (f.shifted old (some definition.name))
  cases hwrite : f.storage.writeAll (f.shifted old (some definition.name)) with
  | mk ended storage =>
    rw [hwrite] at h hstorage
    cases ended with
    | false => cases (Prod.mk.inj h).1
    | true =>
      dsimp only at h hstorage
      rw [List.foldl_append] at h
      rw [hstorage] at h
      exact ⟨_, _, h⟩

/-- Whatever was remembered and however storage was edited, a replacement that succeeds has built the job
    from what is stored at that moment, and has made it live. -/
theorem equips_of_replaceInstance (h : f.replaceInstance definition old now = (.ok (), after)) :
    ∃ plan job, f.Equips definition plan ∧ f.roster.build plan now = .ok job
      ∧ after.jobs.get? definition.name = some (job.attachAll (after.crew definition.name)) := by
  obtain ⟨devices, retired, hinstall⟩ := replaceInstance_ok h
  obtain ⟨job, lookups, hbuild, heq⟩ | ⟨halt, lookups, metrics, -, heq⟩ :=
    install_outcome _ definition now
  · obtain rfl := (Prod.mk.inj (hinstall.symm.trans heq)).2
    obtain ⟨plan, hplan, hroster⟩ := plan_of_build hbuild
    have hequips := equips_of_plan (Lookups.freshFor_forget _ _ definition) hplan
    have hzones : (f.forgotten definition old).zones = f.lookups.zones :=
      (Lookups.zones_forget _ definition).trans (f.lookups.zones_forgetAll _)
    refine ⟨plan, job, ⟨hequips.runs, hequips.area, hequips.ivList, ?_⟩, hroster, ?_⟩
    · rw [hequips.offset, Lookups.offset?, Lookups.offset?, hzones]
    · have hname := (build_ok hbuild).1
      refine (get?_register _ job definition.name).trans ?_
      rw [if_pos hname, hname]
      rfl
  · cases (Prod.mk.inj (hinstall.symm.trans heq)).1

end Fleet

/-! ## Lookups and replacements -/

/-- Lookups that remembered nothing at first answer what storage answers, as long as storage shows the
    same geofences and IV lists. They do so too when storage shows more by now, or shows again what it
    failed to show: neither a miss nor an error is remembered, whatever else is. And whatever is
    remembered, a replacement that succeeds has built its job from what is stored. -/
theorem lookups_read_through :
    (∀ (storage : Storage) (zones : ZoneTable) (calls : List (Storage × LookupCall)),
        (∀ c ∈ calls, storage.SameReads c.1) →
          ({ zones } : Lookups).answers calls = calls.map fun c => c.1.answer c.2)
      ∧ (∀ (zones : ZoneTable) (calls : List (Storage × LookupCall)) (storage : Storage)
          (call : LookupCall), (∀ c ∈ calls, c.1.StillShows storage) →
            ((({ zones } : Lookups).after calls).call storage call).1 = storage.answer call)
      ∧ (∀ (l : Lookups) (storage later : Storage) (calls : List (Storage × LookupCall))
          (name : String) (error : FleetError),
          (l.geofence storage name).1 = .error error →
          (∀ c ∈ calls, ∀ row, c.1.geofence? name ≠ .ok (some row)) →
            (((l.geofence storage name).2.after calls).geofence later name).1
              = later.findGeofence name)
      ∧ (∀ (l : Lookups) (storage later : Storage) (calls : List (Storage × LookupCall))
          (name : String) (error : FleetError),
          (l.ivList storage name).1 = .error error →
          (∀ c ∈ calls, ∀ row, c.1.ivList? name ≠ .ok (some row)) →
            (((l.ivList storage name).2.after calls).ivList later name).1 = later.findIvList name)
      ∧ ∀ (f after : Fleet) (definition : Instance) (old : String) (now : Instant),
          f.replaceInstance definition old now = (.ok (), after) →
            ∃ plan job, f.Equips definition plan ∧ f.roster.build plan now = .ok job
              ∧ after.jobs.get? definition.name
                = some (job.attachAll (after.crew definition.name)) := by
  refine ⟨?_, ?_, ?_, ?_, ?_⟩
  · intro storage zones calls hsame
    exact (Lookups.fresh_of_empty storage zones).answers_eq hsame
  · intro zones calls storage call hshows
    exact (Lookups.fresh_after zones hshows).call_fst call
  · intro l storage later calls name error herror hmissing
    exact Lookups.geofence_after_error herror hmissing later
  · intro l storage later calls name error herror hmissing
    exact Lookups.ivList_after_error herror hmissing later
  · intro f after definition old now hok
    exact Fleet.equips_of_replaceInstance hok

/-! ### An area that is edited -/

/-- An instance for individual values. -/
def watcher : Instance := ⟨"A", .pokemonIv, { geofences := ["yard"], ivList := some "rare" }⟩

/-- The instance is stored with a square and with the creatures it is after. -/
def watched (side : Int) (species : List UInt16) : Storage :=
  let corner (lat lon : Int) : Json := .object [("lat", .int lat), ("lon", .int lon)]
  let square := .list [.list [corner 0 0, corner 0 side, corner side side, corner side 0]]
  { tables := .ofSeed {
      instances := [watcher]
      geofences := [⟨"yard", .polygon, square⟩]
      ivLists := [⟨"rare", species⟩] } }

/-- The square and the creatures were edited after the instance was loaded. -/
def edited : Fleet :=
  let loaded := (({ storage := watched 1 [25] } : Fleet).start (.ofSeconds 0)).2
  { loaded with storage := watched 2 [7] }

/-- Lookups come to know the square, whichever way it is asked for, also when storage was down at first.
    A geofence and an IV list that were missing are found when they have been added. The instance is
    built anew with the edited square and the edited list, although others are remembered. -/
theorem lookups_read_through_edited :
    let s := watched 1 [25]
    let calls : List LookupCall := [.geofence "yard", .geofence "park", .forget watcher,
      .area watcher, .forgetGeofence "yard", .ivList "common", .refresh, .area watcher]
    let offline : Storage := { s with down := [.geofence, .ivList] }
    let park : Geofence := ⟨"park", .polygon, .null⟩
    let common : IvList := ⟨"common", [19]⟩
    let later : Storage := { s with tables := { s.tables with
      geofences := s.tables.geofences.insert park, ivLists := s.tables.ivLists.insert common } }
    let missed := (({} : Lookups).geofence s "park").2.after [(s, .area watcher)]
    let unlisted := (({} : Lookups).ivList s "common").2.after [(s, .area watcher)]
    let now := Instant.ofSeconds 9
    let after := (edited.replaceInstance watcher "A" now).2
    ({} : Lookups).answers (calls.map (s, ·)) = calls.map s.answer
      ∧ ((({} : Lookups).after [(offline, .area watcher)]).call s (.area watcher)).1
        = s.answer (.area watcher)
      ∧ (missed.geofence later "park").1 = .ok park
      ∧ (unlisted.ivList later "common").1 = .ok common
      ∧ edited.lookups.ivLists.get? "rare" = some ⟨"rare", [25]⟩
      ∧ ∃ plan job, plan.area = .polygons [[⟨0, 0⟩, ⟨0, 2⟩, ⟨2, 2⟩, ⟨2, 0⟩]]
        ∧ plan.ivList = some ⟨"rare", [7]⟩ ∧ edited.roster.build plan now = .ok job
        ∧ after.jobs.get? "A" = some (job.attachAll (after.crew "A")) := by
  intro s calls offline park common later missed unlisted now after
  obtain ⟨hanswers, hanswer, hgeofence, hivList, hreplaced⟩ := lookups_read_through
  have hsame : ∀ c ∈ calls.map (s, ·), s.SameReads c.1 := by
    intro c hc
    obtain ⟨call, -, rfl⟩ := List.mem_map.1 hc
    exact ⟨rfl, rfl⟩
  have hshows : ∀ c ∈ [(offline, LookupCall.area watcher)], c.1.StillShows s := by
    intro c hc
    obtain rfl := List.mem_singleton.1 hc
    constructor
    -- nothing is shown while storage is down
    · intro name row habsurd
      cases habsurd
    · intro name row habsurd
      cases habsurd
  have hnopark : ∀ c ∈ [(s, LookupCall.area watcher)], ∀ row,
      c.1.geofence? "park" ≠ .ok (some row) := by
    intro c hc row habsurd
    obtain rfl := List.mem_singleton.1 hc
    cases habsurd
  have hnolist : ∀ c ∈ [(s, LookupCall.area watcher)], ∀ row,
      c.1.ivList? "common" ≠ .ok (some row) := by
    intro c hc row habsurd
    obtain rfl := List.mem_singleton.1 hc
    cases habsurd
  have hpark : (missed.geofence later "park").1 = later.findGeofence "park" :=
    hgeofence {} s later _ "park" (.geofenceNotFound "park") rfl hnopark
  have hparked : later.tables.geofences.get? "park" = some park :=
    Table.get?_insert_self _ park
  have hcommon : (unlisted.ivList later "common").1 = later.findIvList "common" :=
    hivList {} s later _ "common" (.ivListNotFound "common") rfl hnolist
  have hlisted : later.tables.ivLists.get? "common" = some common :=
    Table.get?_insert_self _ common
  have hremembered : edited.lookups.ivLists.get? "rare" = some ⟨"rare", [25]⟩ := rfl
  obtain ⟨plan, job, hequips, hbuild, hjob⟩ := hreplaced edited after watcher "A" now rfl
  have harea : edited.storage.tables.area watcher [] ["yard"]
      = .ok (.polygons [[⟨0, 0⟩, ⟨0, 2⟩, ⟨2, 2⟩, ⟨2, 0⟩]]) := rfl
  have hlist : plan.ivList.map some = some (some ⟨"rare", [7]⟩) := hequips.ivList.symm
  obtain ⟨list, hplanned, hstored⟩ := Option.map_eq_some_iff.1 hlist
  refine ⟨?_, hanswer .empty _ s _ hshows, ?_, ?_, hremembered, plan, job, ?_, ?_, hbuild, hjob⟩
  · rw [show ({} : Lookups) = { zones := .empty } from rfl, hanswers s .empty _ hsame, List.map_map]
    rfl
  · exact hpark.trans (Storage.demand_eq_of_stored rfl hparked _)
  · exact hcommon.trans (Storage.demand_eq_of_stored rfl hlisted _)
  · exact Except.ok.inj ((Tables.area_ok_iff.2 hequips.area).symm.trans harea)
  · exact hplanned.trans hstored

end ScanFleet
