import ScanFleet.Fleet.Work
import ScanFleet.Proofs.Fleet.Instances
import ScanFleet.Proofs.Fleet.Manning
import ScanFleet.Proofs.Table

set_option autoImplicit false

/-! # Live jobs and the definitions of their instances

A job keeps the definition that it was built from, with a queue limit, whatever it is asked. A fleet
files a definition before it builds the job, and the build may fail. Then the definition stays, and so
does a job that was live under the name. So a live job comes to differ from the definition of its
instance exactly when a definition is filed under the name of a job that was built from another one, and
no job can be built from it (`Fleet.RunsOther`). -/

namespace ScanFleet

/-! ## Jobs keep their definitions -/

namespace Job

theorem definition_patrolTask (j : Job) (action : ScanAction) :
    (j.patrolTask action).2.definition = j.definition := by
  unfold patrolTask
  split
  · rfl
  · rfl

theorem definition_bootstrapTask (j : Job) (state : BootstrapState) :
    (j.bootstrapTask state).2.definition = j.definition := by
  unfold bootstrapTask
  split
  · rfl
  · dsimp only
    split
    · rfl
    · rfl

theorem definition_questTask (j : Job) (state : QuestState) (today : Date)
    (account : Option String) : (j.questTask state today account).2.definition = j.definition := by
  unfold questTask
  dsimp only
  split
  · rfl
  · split
    · rfl
    · rfl

theorem definition_ivTask (j : Job) (desk : IvDesk) (store : EncounterStore) (now : Instant) :
    (j.ivTask desk store now).2.definition = j.definition := by
  unfold ivTask
  dsimp only
  split
  · rfl
  · exact definition_patrolTask _ _

theorem definition_handOut (j : Job) (account : Option String) (now : Instant) :
    (j.handOut account now).2.definition = j.definition := by
  unfold handOut
  split
  · rfl
  · split
    · exact j.definition_patrolTask _
    · exact j.definition_patrolTask _
    · exact j.definition_bootstrapTask _
    · exact j.definition_ivTask _ _ now
    · split
      · rfl
      · exact j.definition_questTask _ _ account

theorem definition_checkIn (j : Job) (account : Option String) (now : Instant) :
    (j.checkIn account now).2.definition = j.definition := by
  unfold checkIn
  split
  · rfl
  · exact j.definition_handOut account now

theorem definition_addSighting (j : Job) (s : Sighting) (now : Instant) :
    (j.addSighting s now).definition = j.definition := by
  unfold addSighting
  split
  · rfl
  · rfl

theorem definition_addIv (j : Job) (s : Sighting) (now : Instant) :
    (j.addIv s now).definition = j.definition := by
  unfold addIv
  split
  · rfl
  · rfl

theorem definition_status (j : Job) (now : Instant) : (j.status now).2.definition = j.definition := by
  unfold status
  dsimp only
  split
  · rfl
  · split
    · rfl
    · split
      · rfl
      · rfl
      · split
        · rfl
        · rfl
      · rfl
      · rfl

end Job

namespace Fleet

/-- Another fleet has the same definitions, and its live jobs were built from the same ones. -/
structure SameDefinitions (f g : Fleet) : Prop where
  definitions : g.definitions = f.definitions
  queueLimit : g.queueLimit = f.queueLimit
  jobs : ∀ name, (g.jobs.get? name).map (·.definition) = (f.jobs.get? name).map (·.definition)

variable {f g : Fleet} {name : String} {definition : Instance} {now : Instant}

theorem SameDefinitions.refl (f : Fleet) : f.SameDefinitions f := ⟨rfl, rfl, fun _ => rfl⟩

theorem SameDefinitions.trans {h : Fleet} (hfg : f.SameDefinitions g) (hgh : g.SameDefinitions h) :
    f.SameDefinitions h where
  definitions := hgh.definitions.trans hfg.definitions
  queueLimit := hgh.queueLimit.trans hfg.queueLimit
  jobs name := (hgh.jobs name).trans (hfg.jobs name)

theorem SameWork.sameDefinitions (h : f.SameWork g) : f.SameDefinitions g where
  definitions := h.definitions
  queueLimit := h.queueLimit
  jobs := h.jobs_definition

/-! ## What jobs are asked -/

/-- A live job goes on as it became. -/
theorem sameDefinitions_insert {job after : Job} (hjob : f.jobs.get? name = some job)
    (hafter : after.definition = job.definition) :
    f.SameDefinitions ({ f with jobs := f.jobs.insert after } : Fleet) := by
  refine ⟨rfl, rfl, fun k => ?_⟩
  have hname : key after = name := by
    have hkey : key job = name := Table.key_of_get? hjob
    show after.definition.name = name
    rw [hafter]
    exact hkey
  rw [Table.get?_insert, hname]
  split
  · rename_i hk
    rw [← hk, hjob, Option.map_some, Option.map_some, hafter]
  · rfl

theorem sameDefinitions_checkIn (f : Fleet) (uuid : String) (account : Option String)
    (now : Instant) : f.SameDefinitions (f.checkIn uuid account now).2 := by
  unfold checkIn
  cases hjob : f.jobOf? uuid with
  | none => exact .refl f
  | some job =>
    obtain ⟨target, -, hlive⟩ := Option.bind_eq_some_iff.1 hjob
    have hinsert := sameDefinitions_insert hlive (job.definition_checkIn account now)
    dsimp only
    split
    · exact hinsert
    · dsimp only
      split
      · exact hinsert.trans ⟨rfl, rfl, fun _ => rfl⟩
      · exact hinsert

theorem sameDefinitions_locate (f : Fleet) (uuid : String) (place : Coordinate) (now : Instant) :
    f.SameDefinitions (f.locate uuid place now).2 := by
  unfold locate
  split
  · exact .refl f
  · exact ⟨rfl, rfl, fun _ => rfl⟩

/-- All live jobs hear of something. -/
theorem sameDefinitions_map (f : Fleet) {change : Job → Job}
    (hkey : ∀ job, key (change job) = key job)
    (hchange : ∀ job, (change job).definition = job.definition) :
    f.SameDefinitions ({ f with jobs := f.jobs.map change hkey } : Fleet) := by
  refine ⟨rfl, rfl, fun k => ?_⟩
  rw [Table.get?_map, Option.map_map]
  exact Option.map_congr fun job _ => hchange job

theorem sameDefinitions_status? (f : Fleet) (name : String) (now : Instant) :
    f.SameDefinitions (f.status? name now).2 := by
  unfold status?
  split
  · rename_i job hjob
    exact sameDefinitions_insert hjob (job.definition_status now)
  · exact .refl f

theorem sameDefinitions_statusesOf (f : Fleet) (now : Instant) (instances : List Instance) :
    f.SameDefinitions (f.statusesOf now instances).2 := by
  induction instances generalizing f with
  | nil => exact .refl f
  | cons first rest ih => exact (f.sameDefinitions_status? first.name now).trans (ih _)

/-! ## Currentness -/

/-- The live job of an instance was built from the definition of the instance, with a queue limit. -/
def CurrentOn (f : Fleet) (name : String) : Prop :=
  ∀ job definition, f.jobs.get? name = some job → f.definitions.get? name = some definition →
    job.definition = definition.withQueueLimit f.queueLimit

/-- Every live job was built from the definition of its instance. -/
def Current (f : Fleet) : Prop := ∀ name, f.CurrentOn name

/-- The job that is live under the name of a definition was built from another one. -/
def RunsOther (f : Fleet) (definition : Instance) : Prop :=
  ∃ job, f.jobs.get? definition.name = some job
    ∧ job.definition ≠ definition.withQueueLimit f.queueLimit

theorem currentOn_of_no_job (h : f.jobs.get? name = none) : f.CurrentOn name := by
  intro job definition hjob
  rw [h] at hjob
  cases hjob

theorem currentOn_congr (hdefinitions : g.definitions.get? name = f.definitions.get? name)
    (hlimit : g.queueLimit = f.queueLimit)
    (hjobs : (g.jobs.get? name).map (·.definition) = (f.jobs.get? name).map (·.definition)) :
    g.CurrentOn name ↔ f.CurrentOn name := by
  have hsame : ∀ k : Fleet, k.CurrentOn name ↔
      ∀ built definition, (k.jobs.get? name).map (·.definition) = some built →
        k.definitions.get? name = some definition →
        built = definition.withQueueLimit k.queueLimit := by
    intro k
    constructor
    · intro h built definition hbuilt hdefinition
      obtain ⟨job, hjob, rfl⟩ := Option.map_eq_some_iff.1 hbuilt
      exact h job definition hjob hdefinition
    · intro h job definition hjob hdefinition
      exact h job.definition definition (by rw [hjob, Option.map_some]) hdefinition
  rw [hsame, hsame, hjobs, hdefinitions, hlimit]

theorem current_congr (h : f.SameDefinitions g) : g.Current ↔ f.Current :=
  forall_congr' fun name => currentOn_congr (by rw [h.definitions]) h.queueLimit (h.jobs name)

theorem currentOn_iff_of_defined (h : f.definitions.get? definition.name = some definition) :
    f.CurrentOn definition.name ↔ ¬ f.RunsOther definition := by
  constructor
  · rintro hcurrent ⟨job, hjob, hother⟩
    exact hother (hcurrent job definition hjob h)
  · intro hnot job filed hjob hfiled
    obtain rfl := Option.some.inj (h.symm.trans hfiled)
    exact Classical.byContradiction fun hother => hnot ⟨job, hjob, hother⟩

/-- When a definition was filed, its own live job decides. -/
theorem current_iff_of_defined (h : f.definitions.get? definition.name = some definition)
    (hothers : ∀ name, name ≠ definition.name → f.CurrentOn name) :
    f.Current ↔ ¬ f.RunsOther definition := by
  rw [← currentOn_iff_of_defined h]
  constructor
  · intro hcurrent
    exact hcurrent definition.name
  · intro hown name
    by_cases hname : name = definition.name
    · rw [hname]
      exact hown
    · exact hothers name hname

/-! ## Making jobs live -/

/-- A job that is built from the definition of its instance and made live. -/
theorem currentOn_register_iff {job : Job} (hname : job.name = definition.name)
    (h : f.definitions.get? definition.name = some definition)
    (hbuilt : job.definition = definition.withQueueLimit f.queueLimit) (name : String) :
    (f.register job).CurrentOn name ↔ definition.name = name ∨ f.CurrentOn name := by
  by_cases hk : definition.name = name
  · subst hk
    refine iff_of_true (fun live filed hlive hfiled => ?_) (.inl rfl)
    rw [get?_register, if_pos hname] at hlive
    obtain rfl := Option.some.inj hlive
    obtain rfl := Option.some.inj (h.symm.trans hfiled)
    exact (Job.definition_eq_of_unmanned (job.unmanned_attachAll (f.crew job.name))).trans hbuilt
  · have hstays : (f.register job).CurrentOn name ↔ f.CurrentOn name :=
      currentOn_congr rfl rfl (by rw [get?_register, hname, if_neg hk])
    rw [hstays, or_iff_right hk]

/-- When a definition was filed and its job is to be built, only a build that fails over a live job of
    another definition does harm. -/
theorem current_install_iff (h : f.definitions.get? definition.name = some definition)
    (hothers : ∀ name, name ≠ definition.name → f.CurrentOn name) :
    (f.install definition now).2.Current
      ↔ ¬ ((f.install definition now).1 ≠ .ok () ∧ f.RunsOther definition) := by
  obtain ⟨job, lookups, hbuild, heq⟩ | ⟨halt, lookups, metrics, -, heq⟩ :=
    f.install_outcome definition now
  · rw [heq]
    refine iff_of_true (fun name => ?_) fun hfails => hfails.1 rfl
    have hbuilt := (atWork_of_build hbuild).1
    have hregistered := currentOn_register_iff (f := { f with lookups }) (build_ok hbuild).1 h
      hbuilt name
    refine hregistered.2 ?_
    by_cases hname : name = definition.name
    · exact .inl hname.symm
    · exact .inr (hothers name hname)
  · rw [heq]
    have hfails : (Except.error halt : Except Halt Unit) ≠ .ok () := by
      intro habsurd
      cases habsurd
    rw [and_iff_right hfails]
    exact current_iff_of_defined h hothers

/-! ## Instances -/

theorem current_addInstance_iff (h : f.Current) (definition : Instance) (now : Instant) :
    (f.addInstance definition now).2.Current
      ↔ ¬ ((f.addInstance definition now).1 ≠ .ok () ∧ f.RunsOther definition) := by
  have hfiled : ∀ name, (f.definitions.insert definition).get? name
      = if definition.name = name then some definition else f.definitions.get? name :=
    f.definitions.get?_insert definition
  refine current_install_iff ((hfiled definition.name).trans (if_pos rfl)) fun name hname => ?_
  have hstays : ({ f with definitions := f.definitions.insert definition } : Fleet).CurrentOn name
      ↔ f.CurrentOn name :=
    currentOn_congr ((hfiled name).trans (if_neg (Ne.symm hname))) rfl rfl
  exact hstays.2 (h name)

/-- A replacement takes the former job away, so only another live job of the new name can differ. -/
theorem runsOther_replaced_iff (definition : Instance) (old : String) :
    (f.replaced definition old).RunsOther definition
      ↔ definition.name ≠ old ∧ f.RunsOther definition := by
  have hjobs : (f.replaced definition old).jobs.get? definition.name
      = if old = definition.name then none else f.jobs.get? definition.name :=
    f.jobs.get?_erase old definition.name
  unfold RunsOther
  rw [hjobs]
  by_cases hsame : old = definition.name
  · simp [hsame]
  · rw [if_neg hsame]
    simp only [ne_eq, Ne.symm hsame, not_false_eq_true, true_and]
    rfl

theorem current_replaceInstance_iff (h : f.Current) (definition : Instance) (old : String)
    (now : Instant) :
    (f.replaceInstance definition old now).2.Current
      ↔ ¬ ((f.replaceInstance definition old now).1 ≠ .ok () ∧ definition.name ≠ old
        ∧ f.RunsOther definition) := by
  have hfiled : ∀ name, (f.replaced definition old).definitions.get? name
      = if definition.name = name then some definition
        else (f.definitions.erase old).get? name :=
    (f.definitions.erase old).get?_insert definition
  have hdefined : (f.replaced definition old).definitions.get? definition.name = some definition :=
    (hfiled definition.name).trans (if_pos rfl)
  have hothers : ∀ name, name ≠ definition.name → (f.replaced definition old).CurrentOn name := by
    intro name hname
    have hjobs : (f.replaced definition old).jobs.get? name
        = if old = name then none else f.jobs.get? name := f.jobs.get?_erase old name
    by_cases hold : old = name
    · exact currentOn_of_no_job (hjobs.trans (if_pos hold))
    · rw [if_neg hold] at hjobs
      have hkept : (f.replaced definition old).definitions.get? name = f.definitions.get? name := by
        rw [hfiled, if_neg (Ne.symm hname), Table.get?_erase, if_neg hold]
      have hstays : (f.replaced definition old).CurrentOn name ↔ f.CurrentOn name :=
        currentOn_congr hkept rfl (by rw [hjobs])
      exact hstays.2 (h name)
  rw [← runsOther_replaced_iff]
  obtain ⟨storage, heq⟩ | ⟨storage, lookups, heq⟩ := f.replaceInstance_cases definition old now
  · rw [heq]
    have hfails : (Except.error .stalled : Except Halt Unit) ≠ .ok () := by
      intro habsurd
      cases habsurd
    rw [and_iff_right hfails]
    exact current_iff_of_defined hdefined hothers
  · rw [heq]
    exact current_install_iff hdefined hothers

theorem Current.removeInstance (h : f.Current) (name : String) :
    (f.removeInstance name).2.Current := by
  obtain ⟨-, heq⟩ | ⟨answer, storage, metrics, heq⟩ := f.removeInstance_cases name
  · rw [heq]
    exact h
  · rw [heq]
    intro k job filed hjob hfiled
    have hjob : (f.jobs.erase name).get? k = some job := hjob
    have hfiled : (f.definitions.erase name).get? k = some filed := hfiled
    rw [Table.get?_erase] at hjob hfiled
    split at hjob
    · cases hjob
    · rename_i hk
      rw [if_neg hk] at hfiled
      exact h k job filed hjob hfiled

/-! ## All instances -/

theorem current_of_no_jobs (hjobs : f.jobs = .empty) : f.Current := by
  intro name
  refine currentOn_of_no_job ?_
  rw [hjobs, Table.get?_empty]

theorem definitions_afterBuild (f : Fleet) (definition : Instance) (now : Instant) :
    (f.afterBuild definition now).definitions = f.definitions := by
  obtain ⟨lookups, -, ⟨job, -, heq⟩ | ⟨-, heq⟩⟩ := f.afterBuild_outcome definition now
  · rw [heq]
    rfl
  · rw [heq]
    rfl

theorem currentOn_afterBuild_iff (h : f.definitions.get? definition.name = some definition)
    (name : String) : (f.afterBuild definition now).CurrentOn name
      ↔ (definition.name = name ∧ f.Builds definition now) ∨ f.CurrentOn name := by
  obtain ⟨lookups, -, ⟨job, hbuild, heq⟩ | ⟨hfails, heq⟩⟩ := f.afterBuild_outcome definition now
  · have hbuilds : f.Builds definition now := ⟨job, hbuild⟩
    rw [heq, and_iff_left hbuilds]
    have hbuilt := (atWork_of_build hbuild).1
    exact currentOn_register_iff (f := { f with lookups }) (build_ok hbuild).1 h hbuilt name
  · have hnot : ¬ (definition.name = name ∧ f.Builds definition now) := fun hbuilt =>
      hfails hbuilt.2
    rw [heq, or_iff_right hnot]
    exact currentOn_congr rfl rfl rfl

/-- After filed definitions were built one after another, a job is of the definition of its instance if
    it was built now, or if it was so before. -/
theorem currentOn_installAll_iff {instances : List Instance}
    (h : ∀ d ∈ instances, f.definitions.get? d.name = some d) (now : Instant) (name : String) :
    (f.installAll now instances).2.CurrentOn name
      ↔ (∃ d ∈ instances, d.name = name ∧ f.Builds d now) ∨ f.CurrentOn name := by
  induction instances generalizing f with
  | nil => simp [installAll]
  | cons first rest ih =>
    have hbuilds := (f.afterBuild_keeps first now).2
    have hrest : ∀ d ∈ rest, (f.afterBuild first now).definitions.get? d.name = some d := by
      intro d hd
      rw [definitions_afterBuild]
      exact h d (List.mem_cons_of_mem first hd)
    rw [installAll_cons, ih hrest, currentOn_afterBuild_iff (h first List.mem_cons_self)]
    simp only [hbuilds, List.mem_cons, exists_eq_or_imp]
    rw [← or_assoc, @or_comm (first.name = name ∧ f.Builds first now)]

/-- A stored definition is loaded for a live job of another one, and no job can be built from it. -/
def Outruns (f : Fleet) (now : Instant) : Prop :=
  ∃ devices instances, f.storage.devices = .ok devices ∧ f.storage.instances = .ok instances ∧
    ∃ d ∈ instances, ¬ f.Builds d now ∧ f.RunsOther d

theorem pairwise_of_instances {storage : Storage} {instances : List Instance}
    (h : storage.instances = .ok instances) : instances.Pairwise fun a b => key a ≠ key b := by
  obtain rfl := Storage.eq_of_read h
  exact storage.tables.instances.pairwise_key_ne

theorem current_start_iff (h : f.Current) (now : Instant) :
    (f.start now).2.Current ↔ ¬ f.Outruns now := by
  obtain ⟨devices, instances, hdevices, hinstances, heq⟩ | ⟨hnone, heq⟩ := f.start_cases now
  · have hdistinct := pairwise_of_instances hinstances
    have hloaded : ∀ d ∈ instances,
        (f.loaded devices instances).definitions.get? d.name = some d :=
      fun d hd => Table.get?_foldl_insert_of_mem hdistinct hd f.definitions
    have hname : ∀ name, (f.start now).2.CurrentOn name
        ↔ (∃ d ∈ instances, d.name = name ∧ f.Builds d now)
          ∨ (f.loaded devices instances).CurrentOn name := by
      intro name
      rw [heq]
      have hinstalled := currentOn_installAll_iff hloaded now name
      -- loading rows does not decide over what can be built
      have hbuilds : ∀ d, (f.loaded devices instances).Builds d now ↔ f.Builds d now :=
        fun d => builds_congr rfl .refl rfl rfl
      simp only [hbuilds] at hinstalled
      exact hinstalled
    constructor
    · rintro hcurrent ⟨devices', instances', -, hinstances', d, hd, hfails, hother⟩
      obtain rfl := Except.ok.inj (hinstances.symm.trans hinstances')
      rcases (hname d.name).1 (hcurrent d.name) with ⟨e, he, hsame, hbuilds⟩ | hkept
      · have hfound := hloaded e he
        rw [hsame, hloaded d hd] at hfound
        obtain rfl := Option.some.inj hfound
        exact hfails hbuilds
      · exact (currentOn_iff_of_defined (hloaded d hd)).1 hkept hother
    · intro hnot name
      by_cases hstored : ∃ d ∈ instances, d.name = name
      · obtain ⟨d, hd, rfl⟩ := hstored
        rw [hname]
        by_cases hbuilds : f.Builds d now
        · exact .inl ⟨d, hd, rfl, hbuilds⟩
        · refine .inr ((currentOn_iff_of_defined (hloaded d hd)).2 fun hother => hnot ?_)
          exact ⟨devices, instances, hdevices, hinstances, d, hd, hbuilds, hother⟩
      · -- nothing is loaded under the name
        have hfiled : (f.loaded devices instances).definitions.get? name = f.definitions.get? name :=
          Table.get?_foldl_insert_of_not (fun d hd hkey => hstored ⟨d, hd, hkey⟩) f.definitions
        rw [hname]
        exact .inr ((currentOn_congr hfiled rfl rfl).2 (h name))
  · rw [heq]
    refine iff_of_true h ?_
    rintro ⟨devices, instances, hdevices, hinstances, -⟩
    exact hnone ⟨devices, instances, hdevices, hinstances⟩

/-- A fleet that is stopped first has no live job that could be outrun. -/
theorem current_restart (f : Fleet) (now : Instant) : (f.restart now).2.Current := by
  have hstopped : ({ f.stop with lookups := f.stop.lookups.refresh } : Fleet).Current :=
    current_of_no_jobs rfl
  refine (current_start_iff hstopped now).2 ?_
  rintro ⟨-, -, -, -, d, -, -, job, hlive, -⟩
  cases hlive

end Fleet

end ScanFleet
