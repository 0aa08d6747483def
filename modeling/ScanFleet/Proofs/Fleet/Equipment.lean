import ScanFleet.Proofs.Fleet.Instances
import ScanFleet.Proofs.Fleet.Verdict

set_option autoImplicit false

/-! # What a definition is equipped with

Which definitions are built, and from what, told by the rows that are stored (`Fleet.Equips`): the
verdict over a build is a job exactly when there is a plan from which the roster builds it. -/

namespace ScanFleet

namespace Fleet

/-- The plan of a definition: every geofence that it names is stored, and the payloads are an area of the
    shape of its kind; the IV list, if it names one, is stored. -/
structure Equips (f : Fleet) (definition : Instance) (plan : JobPlan) : Prop where
  runs : plan.definition = definition.withQueueLimit f.queueLimit
  area : ∃ rows : List Geofence,
    definition.settings.geofences.map f.storage.tables.geofences.get? = rows.map some
      ∧ Area.decode definition.kind.shape (rows.map (·.area)) = .ok plan.area
  ivList : definition.settings.ivList.map f.storage.tables.ivLists.get? = plan.ivList.map some
  offset : plan.offset = f.lookups.offset? definition

/-- What the build of a definition comes to, told by storage. -/
def verdict (f : Fleet) (now : Instant) (definition : Instance) : Except Halt Job :=
  (BuildStage.opening definition).verdict f definition now

end Fleet

namespace Tables

variable {tables : Tables}

theorem payloads_ok_iff {names : List String} {payloads : List Json} :
    tables.payloads names = .ok payloads ↔ ∃ rows : List Geofence,
      names.map tables.geofences.get? = rows.map some ∧ payloads = rows.map (·.area) := by
  induction names generalizing payloads with
  | nil =>
    rw [Tables.payloads, Except.ok.injEq]
    constructor
    · rintro rfl
      exact ⟨[], rfl, rfl⟩
    · rintro ⟨rows, hrows, rfl⟩
      rw [List.map_eq_nil_iff.1 hrows.symm, List.map_nil]
  | cons name rest ih =>
    rw [Tables.payloads, List.map_cons]
    cases hget : tables.geofences.get? name with
    | none =>
      refine iff_of_false (fun h => ?_) ?_
      · cases h
      · rintro ⟨rows, hrows, -⟩
        cases rows with
        | nil => cases hrows
        | cons first others => cases hrows
    | some row =>
      constructor
      · intro h
        obtain ⟨others, hothers, rfl⟩ : ∃ others, tables.payloads rest = .ok others
            ∧ payloads = row.area :: others := by
          cases hrest : tables.payloads rest with
          | error error =>
            rw [hrest] at h
            cases h
          | ok others =>
            rw [hrest] at h
            exact ⟨others, rfl, (Except.ok.inj h).symm⟩
        obtain ⟨rows, hrows, rfl⟩ := ih.1 hothers
        exact ⟨row :: rows, by rw [hrows, List.map_cons], rfl⟩
      · rintro ⟨rows, hrows, rfl⟩
        cases rows with
        | nil => cases hrows
        | cons first others =>
          obtain ⟨hfirst, hothers⟩ := List.cons.inj hrows
          obtain rfl := Option.some.inj hfirst
          have hrest := ih.2 ⟨others, hothers, rfl⟩
          dsimp only
          rw [hrest]
          rfl

theorem area_ok_iff {definition : Instance} {names : List String} {area : Area} :
    tables.area definition [] names = .ok area ↔ ∃ rows : List Geofence,
      names.map tables.geofences.get? = rows.map some
        ∧ Area.decode definition.kind.shape (rows.map (·.area)) = .ok area := by
  rw [Tables.area]
  cases hpayloads : tables.payloads names with
  | error error =>
    refine iff_of_false (fun h => ?_) ?_
    · cases h
    · rintro ⟨rows, hrows, -⟩
      have hok := payloads_ok_iff.2 ⟨rows, hrows, rfl⟩
      rw [hpayloads] at hok
      cases hok
  | ok payloads =>
    obtain ⟨rows, hrows, rfl⟩ := payloads_ok_iff.1 hpayloads
    dsimp only
    rw [List.nil_append, mapError_eq_ok_iff]
    constructor
    · intro hdecode
      exact ⟨rows, hrows, hdecode⟩
    · rintro ⟨others, hothers, hdecode⟩
      obtain rfl := (List.map_inj_right fun _ _ => Option.some.inj).1 (hrows.symm.trans hothers)
      exact hdecode

end Tables

namespace BuildStage

variable {f : Fleet} {definition : Instance} {now : Instant}

theorem verdictReady_ok_iff {area : Area} {list : Option IvList} {job : Job} :
    verdictReady f definition now area list = .ok job ↔ f.roster.build
      { definition := definition.withQueueLimit f.queueLimit, area, ivList := list,
        offset := f.lookups.offset? definition } now = .ok job :=
  mapError_eq_ok_iff

theorem verdictArea_ok_iff {area : Area} {job : Job} :
    verdictArea f definition now area = .ok job ↔ ∃ list : Option IvList,
      definition.settings.ivList.map f.storage.tables.ivLists.get? = list.map some
        ∧ verdictReady f definition now area list = .ok job := by
  unfold verdictArea
  cases definition.settings.ivList with
  | none =>
    constructor
    · intro h
      exact ⟨none, rfl, h⟩
    · rintro ⟨list, hlist, h⟩
      obtain rfl := Option.map_eq_none_iff.1 hlist.symm
      exact h
  | some name =>
    rw [Option.map_some]
    dsimp only [verdictNamed]
    cases f.storage.tables.ivLists.get? name with
    | none =>
      refine iff_of_false (fun h => ?_) ?_
      · cases h
      · rintro ⟨list, hlist, -⟩
        cases list with
        | none => cases hlist
        | some row => cases hlist
    | some row =>
      constructor
      · intro h
        exact ⟨some row, rfl, h⟩
      · rintro ⟨list, hlist, h⟩
        cases list with
        | none => cases hlist
        | some other =>
          cases hlist
          exact h

/-- A job is built exactly from a plan that the definition is equipped with. -/
theorem verdict_ok_iff {job : Job} : f.verdict now definition = .ok job
    ↔ ∃ plan, f.Equips definition plan ∧ f.roster.build plan now = .ok job := by
  have hfrom : verdictFrom f definition now [] definition.settings.geofences = .ok job
      ↔ ∃ plan, f.Equips definition plan ∧ f.roster.build plan now = .ok job := by
    unfold verdictFrom
    cases harea : f.storage.tables.area definition [] definition.settings.geofences with
    | error error =>
      refine iff_of_false (fun h => ?_) ?_
      · cases h
      · rintro ⟨plan, hplan, -⟩
        have hok := Tables.area_ok_iff.2 hplan.area
        rw [harea] at hok
        cases hok
    | ok area =>
      dsimp only
      rw [verdictArea_ok_iff]
      constructor
      · rintro ⟨list, hlist, hready⟩
        exact ⟨_, ⟨rfl, Tables.area_ok_iff.1 harea, hlist, rfl⟩, verdictReady_ok_iff.1 hready⟩
      · rintro ⟨plan, hplan, hbuild⟩
        refine ⟨plan.ivList, hplan.ivList, verdictReady_ok_iff.2 ?_⟩
        obtain ⟨runs, planned, ivList, offset⟩ := plan
        have hsame := Tables.area_ok_iff.2 hplan.area
        rw [harea] at hsame
        obtain rfl := Except.ok.inj hsame
        obtain rfl := hplan.runs
        obtain rfl := hplan.offset
        exact hbuild
  unfold Fleet.verdict opening
  split
  · rename_i hnone
    refine iff_of_false (fun h => ?_) ?_
    · cases h
    · rintro ⟨plan, hplan, -⟩
      -- no payload is no area
      have hok := Tables.area_ok_iff.2 hplan.area
      rw [hnone] at hok
      cases hok
  · rw [verdict_withPayloads]
    exact hfrom

/-- A job that is built bears the name of its definition. -/
theorem name_of_verdict {job : Job} (h : f.verdict now definition = .ok job) :
    job.name = definition.name := by
  obtain ⟨plan, hplan, hbuild⟩ := verdict_ok_iff.1 h
  obtain ⟨duty, rfl⟩ := BuilderRoster.build_ok hbuild
  show plan.definition.name = definition.name
  rw [hplan.runs]
  rfl

end BuildStage

end ScanFleet
