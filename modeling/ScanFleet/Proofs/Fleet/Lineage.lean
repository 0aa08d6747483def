import ScanFleet.Fleet.Work
import ScanFleet.Proofs.Fleet.Instances
import ScanFleet.Proofs.Fleet.Manning
import ScanFleet.Proofs.Table

set_option autoImplicit false

/-! # What became of every job

A job that is built is made live at once, and leaves the table of live jobs when another job of its
name is made live, when its instance is replaced or removed, or when the fleet is stopped. Each time it
is stopped and retired. So the retired jobs of a name and then the live one are all jobs that were ever
built under that name, in order (`Fleet.lineage`), and `Fleet.Accounts` says that nothing else is: the
lineage of each name is what the roll of built definitions says, the live jobs are at work for defined
instances, and the retired ones are stopped. Only a replacement that waits for a write retires a job
which it has not stopped yet. -/

namespace ScanFleet

namespace Job

@[simp] theorem definition_stop (j : Job) : j.stop.definition = j.definition := by
  rw [stop, order_eq]

@[simp] theorem name_stop (j : Job) : j.stop.name = j.name := by
  rw [name, name, definition_stop]

theorem stopped_stop {j : Job} (h : j.broken = false) : j.stop.stopped = true := by
  simp [stop, order, h, stopped, Patrol.stop]

end Job

namespace Fleet

/-- All jobs that were made live under a name, in order: the retired ones, then the live one. -/
def lineage (f : Fleet) (name : String) : List Job :=
  f.formerJobs name ++ (f.jobs.get? name).toList

/-- The roll tells from which definitions jobs were built. Each name has the jobs of its lineage, and
    only the live one is not stopped, provided that what was begun has ended. -/
structure Accounts (f : Fleet) (roll : List Instance) (ended : Prop) : Prop where
  lineage : ∀ name, (f.lineage name).map (·.definition) = roll.filter (·.name == name)
  retired : ended → ∀ job ∈ f.retired, job.stopped = true
  live : ∀ name job, f.jobs.get? name = some job →
    job.AtWork ∧ f.definitions.has name = true

variable {f g : Fleet} {roll : List Instance} {ended : Prop}

/-- A fleet without jobs has nothing to account for. -/
theorem accounts_of_no_jobs (hjobs : f.jobs = .empty) (hretired : f.retired = []) :
    f.Accounts [] True where
  lineage name := by simp [Fleet.lineage, formerJobs, hjobs, hretired]
  retired _ job hjob := by
    rw [hretired] at hjob
    cases hjob
  live name job hjob := by
    rw [hjobs] at hjob
    cases hjob

theorem Accounts.of_imp (h : f.Accounts roll ended) {later : Prop} (himp : later → ended) :
    f.Accounts roll later where
  lineage := h.lineage
  retired hlater := h.retired (himp hlater)
  live := h.live

/-- Who is attached to the jobs does not matter. -/
theorem Accounts.of_sameWork (h : f.Accounts roll ended) (hsame : f.SameWork g) : g.Accounts roll ended where
  lineage name := by
    rw [← h.lineage name, Fleet.lineage, Fleet.lineage, formerJobs, formerJobs, hsame.retired,
      List.map_append, List.map_append, ← Option.toList_map, ← Option.toList_map, hsame.jobs_definition]
  retired := by
    rw [hsame.retired]
    exact h.retired
  live name job hjob := by
    obtain ⟨former, hformer, hunmanned⟩ := hsame.exists_job hjob
    obtain ⟨hwork, hdefined⟩ := h.live name former hformer
    rw [hsame.definitions]
    exact ⟨hwork.of_unmanned hunmanned, hdefined⟩

theorem Accounts.define (h : f.Accounts roll ended) (definition : Instance) :
    ({ f with definitions := f.definitions.insert definition } : Fleet).Accounts roll ended where
  lineage := h.lineage
  retired := h.retired
  live name job hjob := by
    obtain ⟨hwork, hdefined⟩ := h.live name job hjob
    rw [Table.has_insert, hdefined, Bool.or_true]
    exact ⟨hwork, rfl⟩

/-! ## Jobs come and go -/

/-- When a job is retired, stopped or not, it goes on to be counted where it was, and the job that comes
    after it is counted next. -/
theorem lineage_of_retired {name : String} {next : Option Job} {change : Job → Job}
    (hchange : ∀ job, (change job).definition = job.definition)
    (hretired : g.retired = f.retired ++ ((f.jobs.get? name).map change).toList)
    (hjobs : ∀ k, g.jobs.get? k = if name = k then next else f.jobs.get? k) (k : String) :
    (g.lineage k).map (·.definition)
      = (f.lineage k).map (·.definition)
        ++ if name = k then next.toList.map (·.definition) else [] := by
  unfold lineage formerJobs
  rw [hretired, hjobs, List.filter_append]
  cases hlive : f.jobs.get? name with
  | none =>
    by_cases hk : name = k
    · subst hk
      simp [hlive]
    · simp [hk]
  | some job =>
    have hname : (change job).name = name := by
      rw [Job.name, hchange]
      exact Table.key_of_get? hlive
    by_cases hk : name = k
    · subst hk
      simp [hlive, hname, hchange]
    · simp [hk, hname]

theorem Accounts.stopped_of_retired (h : f.Accounts roll ended) {name : String}
    (hretired : g.retired = f.retired ++ ((f.jobs.get? name).map Job.stop).toList) :
    ended → ∀ job ∈ g.retired, job.stopped = true := by
  intro hended job hjob
  rw [hretired, List.mem_append, Option.mem_toList, Option.map_eq_some_iff] at hjob
  rcases hjob with hold | ⟨live, hlive, rfl⟩
  · exact h.retired hended job hold
  · exact Job.stopped_stop (h.live name live hlive).1.unbroken

/-- The job of an instance goes, and no other definition than its own. -/
theorem Accounts.withdraw (h : f.Accounts roll ended) {name : String} {change : Job → Job}
    (hchange : ∀ job, (change job).definition = job.definition)
    (hretired : g.retired = f.retired ++ ((f.jobs.get? name).map change).toList) {later : Prop}
    (hstopped : later → ∀ job ∈ g.retired, job.stopped = true)
    (hjobs : g.jobs = f.jobs.erase name)
    (hdefined : ∀ k, k ≠ name → f.definitions.has k = true → g.definitions.has k = true) :
    g.Accounts roll later := by
  have hget : ∀ k, g.jobs.get? k = if name = k then none else f.jobs.get? k := by
    intro k
    rw [hjobs, Table.get?_erase]
  refine ⟨fun k => ?_, hstopped, fun k job hjob => ?_⟩
  · rw [lineage_of_retired hchange hretired hget, h.lineage]
    simp
  · rw [hget] at hjob
    split at hjob
    · cases hjob
    · rename_i hne
      obtain ⟨hwork, hold⟩ := h.live k job hjob
      exact ⟨hwork, hdefined k (Ne.symm hne) hold⟩

/-- A job at work for a defined instance is made live. -/
theorem Accounts.register (h : f.Accounts roll ended) {job : Job} (hwork : job.AtWork)
    (hdefined : f.definitions.has job.name = true) :
    (f.register job).Accounts (roll ++ [job.definition]) ended := by
  have hcrewed := job.unmanned_attachAll (f.crew job.name)
  refine ⟨fun k => ?_, h.stopped_of_retired rfl, fun k live hlive => ?_⟩
  · rw [lineage_of_retired Job.definition_stop rfl (f.get?_register job), h.lineage, List.filter_append]
    by_cases hk : job.name = k
    · have hbuilt : job.definition.name = k := hk
      rw [if_pos hk, Option.toList_some, List.map_singleton, Job.definition_eq_of_unmanned hcrewed]
      simp [hbuilt]
    · have hbuilt : ¬ job.definition.name = k := hk
      simp [hk, hbuilt]
  · rw [get?_register] at hlive
    split at hlive
    · rename_i hk
      obtain rfl := Option.some.inj hlive
      subst hk
      exact ⟨hwork.of_unmanned hcrewed, hdefined⟩
    · exact h.live k live hlive

/-! ## Instances -/

/-- The definition of the job that was built, if the answer is that one was. -/
def builtOn (answer : Except Halt Unit) (definition : Instance) : List Instance :=
  match answer with
  | .ok () => [definition]
  | .error _ => []

theorem Accounts.registerBuilt (h : f.Accounts roll ended) {definition : Instance} {now : Instant}
    {job : Job} (hbuild : (f.build definition now).1 = .ok job)
    (hdefined : f.definitions.has definition.name = true) (lookups : Lookups) :
    (({ f with lookups } : Fleet).register job).Accounts
      (roll ++ [definition.withQueueLimit f.queueLimit]) ended := by
  obtain ⟨hdefinition, hwork⟩ := atWork_of_build hbuild
  have hname : job.name = definition.name := (build_ok hbuild).1
  have hlookups : ({ f with lookups } : Fleet).Accounts roll ended :=
    h.of_sameWork (.of_eq rfl rfl rfl rfl)
  rw [← hdefinition]
  exact hlookups.register hwork (hname ▸ hdefined)

theorem Accounts.install (h : f.Accounts roll ended) {definition : Instance} {now : Instant}
    (hdefined : f.definitions.has definition.name = true) :
    (f.install definition now).2.Accounts
      (roll ++ builtOn (f.install definition now).1 (definition.withQueueLimit f.queueLimit))
      ended := by
  obtain ⟨job, lookups, hbuild, heq⟩ | ⟨halt, lookups, metrics, -, heq⟩ :=
    f.install_outcome definition now
  · rw [heq]
    exact (h.registerBuilt hbuild hdefined lookups).of_sameWork (.of_eq rfl rfl rfl rfl)
  · rw [heq]
    unfold builtOn
    rw [List.append_nil]
    exact h.of_sameWork (.of_eq rfl rfl rfl rfl)

theorem Accounts.addInstance (h : f.Accounts roll ended) (definition : Instance) (now : Instant) :
    (f.addInstance definition now).2.Accounts
      (roll ++ builtOn (f.addInstance definition now).1 (definition.withQueueLimit f.queueLimit))
      ended :=
  (h.define definition).install (f.definitions.has_insert_self definition)

/-- A replacement that comes to an end has stopped the former job. -/
theorem Accounts.replaceInstance (h : f.Accounts roll ended) (definition : Instance) (old : String)
    (now : Instant) :
    (f.replaceInstance definition old now).2.Accounts
      (roll ++ builtOn (f.replaceInstance definition old now).1
        (definition.withQueueLimit f.queueLimit))
      (ended ∧ (f.replaceInstance definition old now).1 ≠ .error .stalled) := by
  have hdefined : ∀ k, k ≠ old → f.definitions.has k = true →
      (f.replaced definition old).definitions.has k = true := by
    intro k hne hk
    show ((f.definitions.erase old).insert definition).has k = true
    rw [Table.has_insert, Table.has_erase, hk]
    simp [Ne.symm hne]
  obtain ⟨storage, heq⟩ | ⟨storage, lookups, heq⟩ := f.replaceInstance_cases definition old now
  · rw [heq]
    unfold builtOn
    rw [List.append_nil]
    refine h.withdraw (fun _ => rfl) ?_ (fun hended => absurd rfl hended.2) rfl hdefined
    exact congrArg (fun job => f.retired ++ job.toList) Option.map_id'.symm
  · rw [heq]
    refine Accounts.install ?_ ?_ |>.of_imp And.left
    · exact h.withdraw Job.definition_stop rfl (h.stopped_of_retired rfl) rfl hdefined
    · exact (f.definitions.erase old).has_insert_self definition

theorem Accounts.removeInstance (h : f.Accounts roll ended) (name : String) :
    (f.removeInstance name).2.Accounts roll ended := by
  obtain ⟨-, heq⟩ | ⟨answer, storage, metrics, heq⟩ := f.removeInstance_cases name
  · rw [heq]
    exact h
  · rw [heq]
    refine h.withdraw Job.definition_stop rfl (h.stopped_of_retired rfl) rfl fun k hne hk => ?_
    show (f.definitions.erase name).has k = true
    rw [Table.has_erase, hk]
    simp [Ne.symm hne]

/-! ## All instances -/

/-- The definitions from which jobs can be built, with their queue limits. -/
def buildable (f : Fleet) (now : Instant) (instances : List Instance) : List Instance :=
  (instances.filter fun d => (f.build d now).1.isOk).map (·.withQueueLimit f.queueLimit)

theorem isOk_build_iff {definition : Instance} {now : Instant} :
    (f.build definition now).1.isOk = true ↔ f.Builds definition now := by
  unfold Builds
  cases (f.build definition now).1 with
  | error halt => simp [Except.isOk, Except.toBool]
  | ok job => simp [Except.isOk, Except.toBool]

/-- What can be built does not depend on devices, definitions and jobs. -/
theorem buildable_congr {now : Instant} (hlimit : g.queueLimit = f.queueLimit)
    (hbuilds : ∀ d, g.Builds d now ↔ f.Builds d now) (instances : List Instance) :
    g.buildable now instances = f.buildable now instances := by
  have hsame : ∀ d, (g.build d now).1.isOk = (f.build d now).1.isOk := fun d => by
    rw [Bool.eq_iff_iff, isOk_build_iff, isOk_build_iff, hbuilds]
  simp only [buildable, hlimit, hsame]

theorem Accounts.installAll (h : f.Accounts roll ended) (now : Instant) {instances : List Instance}
    (hdefined : ∀ d ∈ instances, f.definitions.has d.name = true) :
    (f.installAll now instances).2.Accounts (roll ++ f.buildable now instances) ended := by
  induction instances generalizing f roll with
  | nil =>
    rw [buildable, List.filter_nil, List.map_nil, List.append_nil]
    exact h
  | cons definition rest ih =>
    have hfirst := hdefined definition List.mem_cons_self
    have hrest := fun d hd => hdefined d (List.mem_cons_of_mem definition hd)
    have hbuilds := (f.afterBuild_keeps definition now).2
    rw [installAll_cons]
    obtain ⟨lookups, -, ⟨job, hbuild, heq⟩ | ⟨hfails, heq⟩⟩ := f.afterBuild_outcome definition now
    · have hok : (f.build definition now).1.isOk = true := isOk_build_iff.2 ⟨job, hbuild⟩
      have hlater : (f.afterBuild definition now).buildable now rest = f.buildable now rest :=
        buildable_congr (by rw [heq]; rfl) hbuilds rest
      have hbuilt : f.buildable now (definition :: rest)
          = [definition.withQueueLimit f.queueLimit] ++ f.buildable now rest := by
        simp [buildable, hok]
      rw [hbuilt, ← List.append_assoc, ← hlater, heq]
      exact ih (h.registerBuilt hbuild hfirst lookups) hrest
    · have hnot : (f.build definition now).1.isOk = false := by
        rw [← Bool.not_eq_true, isOk_build_iff]
        exact hfails
      have hlater : (f.afterBuild definition now).buildable now rest = f.buildable now rest :=
        buildable_congr (by rw [heq]; rfl) hbuilds rest
      have hskipped : f.buildable now (definition :: rest) = f.buildable now rest := by
        simp [buildable, hnot]
      rw [hskipped, ← hlater, heq]
      exact ih (h.of_sameWork (.of_eq rfl rfl rfl rfl)) hrest

/-- The definitions of the jobs that a start builds. -/
def startRoll (f : Fleet) (now : Instant) : List Instance :=
  match f.storage.devices, f.storage.instances with
  | .ok _, .ok instances => f.buildable now instances
  | _, _ => []

theorem Accounts.start (h : f.Accounts roll ended) (now : Instant) :
    (f.start now).2.Accounts (roll ++ f.startRoll now) ended := by
  obtain ⟨devices, instances, hdevices, hinstances, heq⟩ | ⟨hnone, heq⟩ := f.start_cases now
  · have hroll : f.startRoll now = (f.loaded devices instances).buildable now instances := by
      rw [startRoll, hdevices, hinstances]
      exact (buildable_congr rfl (fun d => builds_congr rfl .refl rfl rfl) instances).symm
    have hloaded : (f.loaded devices instances).Accounts roll ended := {
      lineage := h.lineage
      retired := h.retired
      live := fun name job hjob =>
        (h.live name job hjob).imp_right fun hold => Table.has_foldl_insert (.inl hold) }
    have hdefined : ∀ d ∈ instances, (f.loaded devices instances).definitions.has d.name = true :=
      fun d hd => Table.has_foldl_insert (.inr ⟨d, hd, rfl⟩)
    rw [heq, hroll]
    exact (hloaded.installAll now hdefined).of_sameWork (.of_eq rfl rfl rfl rfl)
  · have hroll : f.startRoll now = [] := by
      unfold startRoll
      split
      · rename_i hdevices hinstances
        exact absurd ⟨_, _, hdevices, hinstances⟩ hnone
      · rfl
    rw [heq, hroll, List.append_nil]
    exact h

/-- All live jobs are stopped and retired at once. -/
theorem Accounts.stop (h : f.Accounts roll ended) : f.stop.Accounts roll ended where
  lineage name := by
    have hlive : (f.jobs.rows.map Job.stop).filter (·.name == name)
        = ((f.jobs.get? name).map Job.stop).toList := by
      have hname : ((fun job : Job => job.name == name) ∘ Job.stop)
          = fun job => decide (key job = name) := by
        funext job
        simp only [Function.comp_apply, Job.name_stop]
        rfl
      rw [List.filter_map, hname, Table.rows_filter_key, Option.toList_map]
    have hretired : f.stop.retired = f.retired ++ f.jobs.rows.map Job.stop := rfl
    have hnone : f.stop.jobs.get? name = none := rfl
    rw [← h.lineage name, Fleet.lineage, Fleet.lineage, formerJobs, formerJobs, hretired, hnone,
      List.filter_append, hlive]
    cases f.jobs.get? name with
    | none => simp
    | some job => simp
  retired hended job hjob := by
    have hjob : job ∈ f.retired ++ f.jobs.rows.map Job.stop := hjob
    rcases List.mem_append.1 hjob with hold | hlive
    · exact h.retired hended job hold
    · obtain ⟨live, hmem, rfl⟩ := List.mem_map.1 hlive
      exact Job.stopped_stop (h.live live.name live (Table.get?_of_mem hmem)).1.unbroken
  live name job hjob := by cases hjob

theorem Accounts.restart (h : f.Accounts roll ended) (now : Instant) :
    (f.restart now).2.Accounts
      (roll ++ ({ f.stop with lookups := f.stop.lookups.refresh } : Fleet).startRoll now) ended := by
  have hstopped : ({ f.stop with lookups := f.stop.lookups.refresh } : Fleet).Accounts roll ended :=
    h.stop.of_sameWork (.of_eq rfl rfl rfl rfl)
  exact hstopped.start now

end Fleet

end ScanFleet
