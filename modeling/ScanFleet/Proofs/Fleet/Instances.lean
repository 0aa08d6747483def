import ScanFleet.Proofs.Fleet.Build
import ScanFleet.Proofs.Fleet.Moves

set_option autoImplicit false

/-! # Attachment under changes of the instances

Loading, adding, replacing and removing instances. A job that is built anew gets its crew from the
table of devices. So the two places can come to disagree only over a job that stays live while the
table changes: when a fleet is started again (`Fleet.Misses`), and when a replacement cannot be built
(`Fleet.Strands`). -/

namespace ScanFleet

/-! ## New jobs -/

/-- A fault that is told in another way is a fault still. -/
theorem mapError_eq_ok_iff {ε ε' α : Type} {change : ε → ε'} {answer : Except ε α} {a : α} :
    answer.mapError change = .ok a ↔ answer = .ok a := by
  cases answer with
  | error error =>
    constructor
    · intro h
      cases h
    · intro h
      cases h
  | ok b =>
    show (Except.ok b : Except ε' α) = .ok a ↔ (Except.ok b : Except ε α) = .ok a
    rw [Except.ok.injEq, Except.ok.injEq]

/-- A job as it is built from a plan. -/
theorem BuilderRoster.build_ok {roster : BuilderRoster} {plan : JobPlan} {now : Instant} {job : Job}
    (h : roster.build plan now = .ok job) : ∃ duty, job = plan.job duty := by
  unfold BuilderRoster.build at h
  split at h
  · cases h
  · exact JobBuilder.exists_duty h

namespace Fleet

theorem plan_ok {f : Fleet} {definition : Instance} {plan : JobPlan}
    (h : (f.plan definition).1 = .ok plan) :
    plan.definition = definition.withQueueLimit f.queueLimit := by
  unfold Fleet.plan at h
  split at h
  · cases h
  · split at h
    · cases h
    · obtain rfl := Except.ok.inj h
      rfl

/-- A job is built from the plan of its definition. -/
theorem plan_of_build {f : Fleet} {definition : Instance} {now : Instant} {job : Job}
    (h : (f.build definition now).1 = .ok job) :
    ∃ plan, (f.plan definition).1 = .ok plan ∧ f.roster.build plan now = .ok job := by
  rw [build_eq] at h
  dsimp only at h
  split at h
  · cases h
  · rename_i plan hplan
    exact ⟨plan, hplan, mapError_eq_ok_iff.1 h⟩

/-- A job that was built follows the plan of its definition. -/
theorem exists_plan_of_build {f : Fleet} {definition : Instance} {now : Instant} {job : Job}
    (h : (f.build definition now).1 = .ok job) :
    ∃ (plan : JobPlan) (duty : Duty),
      plan.definition = definition.withQueueLimit f.queueLimit ∧ job = plan.job duty := by
  obtain ⟨plan, hplan, hbuild⟩ := plan_of_build h
  obtain ⟨duty, rfl⟩ := BuilderRoster.build_ok hbuild
  exact ⟨plan, duty, plan_ok hplan, rfl⟩

/-- A job that was built runs its definition, with a queue limit. -/
theorem atWork_of_build {f : Fleet} {definition : Instance} {now : Instant} {job : Job}
    (h : (f.build definition now).1 = .ok job) :
    job.definition = definition.withQueueLimit f.queueLimit ∧ job.AtWork := by
  obtain ⟨plan, duty, hplan, rfl⟩ := exists_plan_of_build h
  exact ⟨hplan, rfl, rfl⟩

/-- A job that was built is a new job of its definition. -/
theorem build_ok {f : Fleet} {definition : Instance} {now : Instant} {job : Job}
    (h : (f.build definition now).1 = .ok job) : job.name = definition.name ∧ job.New := by
  obtain ⟨plan, duty, hplan, rfl⟩ := exists_plan_of_build h
  refine ⟨?_, rfl, rfl⟩
  show plan.definition.name = definition.name
  rw [hplan]
  rfl

/-! ## Making one job live -/

/-- The job of a definition is built and made live, or the fleet only counts that it was not. -/
theorem install_outcome (f : Fleet) (definition : Instance) (now : Instant) :
    (∃ job lookups, (f.build definition now).1 = .ok job
        ∧ f.install definition now
          = (.ok (), (({ f with lookups } : Fleet).register job).refreshSize))
      ∨ ∃ halt lookups metrics, (f.build definition now).1 = .error halt
        ∧ f.install definition now = (.error halt, { f with lookups, metrics }) := by
  unfold install
  cases hbuild : f.build definition now with
  | mk answer g =>
    have hg : g = { f with lookups := (f.plan definition).2 } := by
      rw [build_eq] at hbuild
      exact (Prod.mk.inj hbuild).2.symm
    subst hg
    cases answer with
    | ok job => exact .inl ⟨job, _, rfl, rfl⟩
    | error halt =>
      cases halt with
      | failed error => exact .inr ⟨_, _, _, rfl, rfl⟩
      | stalled => exact .inr ⟨_, _, _, rfl, rfl⟩
      | beyondCalendar => exact .inr ⟨_, _, _, rfl, rfl⟩

/-- A job is made live, or the live jobs stay as they are. -/
theorem install_cases (f : Fleet) (definition : Instance) (now : Instant) :
    (∃ job lookups, job.name = definition.name ∧ job.New ∧ f.install definition now
        = (.ok (), (({ f with lookups } : Fleet).register job).refreshSize))
      ∨ ∃ halt g, f.install definition now = (.error halt, g) ∧ g.jobs = f.jobs
        ∧ g.devices = f.devices ∧ g.storage = f.storage := by
  obtain ⟨job, lookups, hbuild, heq⟩ | ⟨halt, lookups, metrics, -, heq⟩ :=
    f.install_outcome definition now
  · obtain ⟨hname, hnew⟩ := build_ok hbuild
    exact .inl ⟨job, lookups, hname, hnew, heq⟩
  · exact .inr ⟨halt, _, heq, rfl, rfl, rfl⟩

theorem Fit.install {f : Fleet} (h : f.Fit) (definition : Instance) (now : Instant) :
    (f.install definition now).2.Fit := by
  obtain ⟨job, lookups, -, hnew, heq⟩ | ⟨halt, g, heq, hjobs, -, hstorage⟩ :=
    f.install_cases definition now
  · rw [heq]
    have hlookups : ({ f with lookups } : Fleet).Fit := h.of_eq rfl rfl
    exact (hlookups.register hnew).of_eq rfl rfl
  · rw [heq]
    exact h.of_eq hjobs (by rw [hstorage])

/-- What is said of other instances does not change, nor anything when the job is not made live. -/
theorem agreesOn_install_iff {f : Fleet} {definition : Instance} {now : Instant} {name : String} :
    (f.install definition now).2.AgreesOn name ↔
      ((f.install definition now).1 = .ok () ∧ name = definition.name) ∨ f.AgreesOn name := by
  obtain ⟨job, lookups, hname, hnew, heq⟩ | ⟨halt, g, heq, hjobs, hdevices, -⟩ :=
    f.install_cases definition now
  · rw [heq, ← hname]
    by_cases hk : name = job.name
    · subst hk
      exact iff_of_true (agreesOn_register hnew) (.inl ⟨rfl, rfl⟩)
    · have hother := agreesOn_register_of_ne (f := { f with lookups }) (Ne.symm hk)
      refine hother.trans ⟨fun h => .inr h, ?_⟩
      rintro (⟨-, habsurd⟩ | h)
      · exact absurd habsurd hk
      · exact h
  · rw [heq]
    have hsame : g.AgreesOn name ↔ f.AgreesOn name :=
      agreesOn_congr (by rw [hjobs]) fun uuid => by rw [post?, post?, hdevices]
    refine hsame.trans ⟨fun h => .inr h, ?_⟩
    rintro (⟨habsurd, -⟩ | h)
    · cases habsurd
    · exact h

theorem InOrder.addInstance {f : Fleet} (h : f.InOrder) (definition : Instance) (now : Instant) :
    (f.addInstance definition now).2.InOrder := by
  have hdefined : ({ f with definitions := f.definitions.insert definition } : Fleet).Fit :=
    h.toFit.of_eq rfl rfl
  refine ⟨hdefined.install definition now, fun name => agreesOn_install_iff.2 (.inr ?_)⟩
  exact h.agrees.of_eq rfl rfl name

/-! ## Replacing and removing -/

/-- What a withdrawal does to the instances of devices. -/
theorem post?_withdraw (f : Fleet) (name : String) (other : Option String) (uuid : String) :
    (f.withdraw name other).post? uuid
      = if f.post? uuid = some name then other else f.post? uuid := by
  have hshift : ∀ found : Option Device,
      (found.map (Device.shift name other)).bind (·.instanceName)
        = if found.bind (·.instanceName) = some name then other
          else found.bind (·.instanceName) := by
    intro found
    cases found with
    | none => simp
    | some device =>
      by_cases hname : device.instanceName = some name
      · simp [Device.shift, Device.worksFor, Device.assign, hname]
      · simp [Device.shift, Device.worksFor, hname]
  rw [post?, withdraw, Table.get?_map]
  exact hshift _

/-- A withdrawal leaves the live jobs of other instances alone, so these must not get devices by it. -/
theorem agreesOn_withdraw_iff {f : Fleet} (h : f.Agrees) {name : String} {other : Option String}
    {k : String} :
    (f.withdraw name other).AgreesOn k ↔
      ¬ (k ≠ name ∧ f.jobs.has k = true ∧ other = some k ∧ ∃ uuid, f.post? uuid = some name) := by
  by_cases hk : k = name
  · subst hk
    refine iff_of_true (agreesOn_of_no_job ?_) fun habsurd => habsurd.1 rfl
    rw [withdraw, Table.get?_erase, if_pos rfl]
  · have hjob : (f.withdraw name other).jobs.get? k = f.jobs.get? k := by
      rw [withdraw, Table.get?_erase, if_neg (Ne.symm hk)]
    rw [agreesOn_iff_of_job_eq (h k) hjob]
    simp only [post?_withdraw]
    constructor
    · rintro hsame ⟨-, hlive, rfl, uuid, hpost⟩
      have hnow := (hsame hlive uuid).2 (by rw [if_pos hpost])
      rw [hpost] at hnow
      exact hk (Option.some.inj hnow).symm
    · intro hnot hlive uuid
      by_cases hpost : f.post? uuid = some name
      · -- the device is shifted, and not to the instance `k`
        rw [if_pos hpost, hpost]
        constructor
        · intro heq
          exact absurd (Option.some.inj heq).symm hk
        · intro hother
          exact absurd ⟨hk, hlive, hother, uuid, hpost⟩ hnot
      · rw [if_neg hpost]

theorem Fit.withdraw {f : Fleet} (h : f.Fit) (name : String) (other : Option String) :
    (f.withdraw name other).Fit where
  unbroken k job hjob := by
    rw [Fleet.withdraw, Table.get?_erase] at hjob
    split at hjob
    · cases hjob
    · exact h.unbroken k job hjob
  ends := h.ends

/-- Writes of rows end when no write hangs. -/
theorem writeAll_ends {s : Storage} (h : s.hanging = []) (devices : List Device) :
    ∃ t : Storage, t.hanging = [] ∧ s.writeAll devices = (true, t) := by
  induction devices generalizing s with
  | nil => exact ⟨s, h, rfl⟩
  | cons d rest ih =>
    obtain hfailed | ⟨t, hdone, hends, -⟩ := write_ends h d
    · rw [Storage.writeAll, hfailed]
      exact ih h
    · rw [Storage.writeAll, hdone]
      exact ih hends

/-- The fleet when a definition has taken the place of an instance, without a job. -/
def replaced (f : Fleet) (definition : Instance) (old : String) : Fleet :=
  { f.withdraw old (some definition.name) with
    definitions := (f.definitions.erase old).insert definition }

/-- A replacement waits for a write, and the former job was not stopped yet, or it goes on to make a
    job live. -/
theorem replaceInstance_cases (f : Fleet) (definition : Instance) (old : String) (now : Instant) :
    (∃ storage, f.replaceInstance definition old now = (.error .stalled,
        { f.replaced definition old with
          storage, retired := f.retired ++ (f.jobs.get? old).toList }))
      ∨ ∃ storage lookups, f.replaceInstance definition old now = ({ f.replaced definition old with
          storage, lookups, retired := f.retired ++ ((f.jobs.get? old).map Job.stop).toList } :
            Fleet).install definition now := by
  unfold replaceInstance
  dsimp only [withdraw]
  cases f.storage.writeAll (f.shifted old (some definition.name)) with
  | mk ended storage =>
    cases ended with
    | false => exact .inl ⟨storage, rfl⟩
    | true => exact .inr ⟨storage, _, rfl⟩

/-- A removal is refused, or the instance goes and its job is stopped, whether the rows of its devices
    are written or not. -/
theorem removeInstance_cases (f : Fleet) (name : String) :
    (f.definitions.has name = false ∧ f.jobs.has name = false)
        ∧ f.removeInstance name = (.error (.failed (.instanceNotFound name)), f)
      ∨ ∃ answer storage metrics, f.removeInstance name = (answer, { f.withdraw name none with
          storage, metrics, retired := f.retired ++ ((f.jobs.get? name).map Job.stop).toList }) := by
  unfold removeInstance
  split
  · rename_i hunknown
    rw [Bool.and_eq_true, Bool.not_eq_true', Bool.not_eq_true'] at hunknown
    exact .inl ⟨hunknown, rfl⟩
  · right
    dsimp only [withdraw]
    cases f.storage.writeAll (f.shifted name none) with
    | mk ended storage =>
      cases ended with
      | false => exact ⟨_, storage, _, rfl⟩
      | true => exact ⟨_, storage, _, rfl⟩

/-- When writes end, a replacement is a withdrawal, and then a job to be made live. -/
theorem replaceInstance_ends {f : Fleet} (h : f.Fit) (definition : Instance) (old : String)
    (now : Instant) :
    ∃ g : Fleet, g.Fit ∧ g.jobs = (f.withdraw old (some definition.name)).jobs
      ∧ g.devices = (f.withdraw old (some definition.name)).devices
      ∧ f.replaceInstance definition old now = g.install definition now := by
  have hwithdrawn := h.withdraw old (some definition.name)
  obtain ⟨storage, hends, hwrite⟩ :=
    writeAll_ends hwithdrawn.ends (f.shifted old (some definition.name))
  have hwrite : f.storage.writeAll (f.shifted old (some definition.name)) = (true, storage) := hwrite
  unfold replaceInstance
  dsimp only [withdraw]
  rw [hwrite]
  refine ⟨_, ?_, rfl, rfl, rfl⟩
  exact ⟨hwithdrawn.unbroken, hends⟩

/-- The devices of an instance go over to a live one, whose new job cannot be built: the job that is
    live goes on without them. -/
def Strands (f : Fleet) (definition : Instance) (old : String) (now : Instant) : Prop :=
  definition.name ≠ old ∧ f.jobs.has definition.name = true
    ∧ (∃ uuid, f.post? uuid = some old) ∧ (f.replaceInstance definition old now).1 ≠ .ok ()

theorem Fit.replaceInstance {f : Fleet} (h : f.Fit) (definition : Instance) (old : String)
    (now : Instant) : (f.replaceInstance definition old now).2.Fit := by
  obtain ⟨g, hg, -, -, heq⟩ := replaceInstance_ends h definition old now
  rw [heq]
  exact hg.install definition now

/-- A replacement keeps the two places in agreement exactly when it strands no device. -/
theorem agrees_replaceInstance_iff {f : Fleet} (h : f.InOrder) (definition : Instance)
    (old : String) (now : Instant) :
    (f.replaceInstance definition old now).2.Agrees ↔ ¬ f.Strands definition old now := by
  obtain ⟨g, -, hjobs, hdevices, heq⟩ := replaceInstance_ends h.toFit definition old now
  have hgiven : ∀ k, g.AgreesOn k ↔
      ¬ (k ≠ old ∧ f.jobs.has k = true ∧ some definition.name = some k
        ∧ ∃ uuid, f.post? uuid = some old) := by
    intro k
    rw [← agreesOn_withdraw_iff h.agrees]
    exact agreesOn_congr (by rw [hjobs]) fun uuid => by rw [post?, post?, hdevices]
  unfold Strands
  rw [heq]
  constructor
  · rintro hafter ⟨hne, hlive, hcrew, hhalt⟩
    rcases agreesOn_install_iff.1 (hafter definition.name) with ⟨hok, -⟩ | hkept
    · exact hhalt hok
    · exact (hgiven definition.name).1 hkept ⟨hne, hlive, rfl, hcrew⟩
  · intro hnot k
    refine agreesOn_install_iff.2 ?_
    by_cases hok : (g.install definition now).1 = .ok () ∧ k = definition.name
    · exact .inl hok
    · refine .inr ((hgiven k).2 ?_)
      rintro ⟨hne, hlive, hname, hcrew⟩
      obtain rfl := Option.some.inj hname
      exact hnot ⟨hne, hlive, hcrew, fun h => hok ⟨h, rfl⟩⟩

/-- Removing an instance releases its devices, which no other instance gets. -/
theorem InOrder.removeInstance {f : Fleet} (h : f.InOrder) (name : String) :
    (f.removeInstance name).2.InOrder := by
  have hwithdrawn := h.toFit.withdraw name none
  obtain ⟨storage, hends, hwrite⟩ := writeAll_ends hwithdrawn.ends (f.shifted name none)
  have hwrite : f.storage.writeAll (f.shifted name none) = (true, storage) := hwrite
  unfold Fleet.removeInstance
  dsimp only [Fleet.withdraw]
  rw [hwrite]
  split
  · exact h
  · refine ⟨⟨hwithdrawn.unbroken, hends⟩, fun k => ?_⟩
    have hkept : (f.withdraw name none).AgreesOn k := by
      refine (agreesOn_withdraw_iff h.agrees).2 ?_
      rintro ⟨-, -, habsurd, -⟩
      cases habsurd
    exact hkept

/-! ## Loading -/

/-- The fleet when the first of several jobs has been built, or could not be. -/
def afterBuild (f : Fleet) (definition : Instance) (now : Instant) : Fleet :=
  match f.build definition now with
  | (.ok job, f) => f.register job
  | (.error _, f) => f.countBuildFailure

theorem installAll_cons (f : Fleet) (now : Instant) (definition : Instance)
    (rest : List Instance) :
    (f.installAll now (definition :: rest)).2
      = ((f.afterBuild definition now).installAll now rest).2 := by
  rw [installAll, afterBuild]
  cases f.build definition now with
  | mk answer g =>
    cases answer with
    | ok job => rfl
    | error halt => rfl

/-- The number of jobs that could be built. -/
theorem built_installAll_cons (f : Fleet) (now : Instant) (definition : Instance)
    (rest : List Instance) :
    (f.installAll now (definition :: rest)).1
      = ((f.afterBuild definition now).installAll now rest).1
        + if (f.build definition now).1.isOk then 1 else 0 := by
  rw [installAll, afterBuild]
  cases f.build definition now with
  | mk answer g =>
    cases answer with
    | ok job => rfl
    | error halt => rfl

/-- The job of a definition is built and made live, or the fleet only counts that it was not. -/
theorem afterBuild_outcome (f : Fleet) (definition : Instance) (now : Instant) :
    ∃ lookups, Lookups.Alike f.storage f.lookups lookups ∧
      ((∃ job, (f.build definition now).1 = .ok job
          ∧ f.afterBuild definition now = ({ f with lookups } : Fleet).register job)
        ∨ ¬ f.Builds definition now
          ∧ f.afterBuild definition now = ({ f with lookups } : Fleet).countBuildFailure) := by
  refine ⟨(f.plan definition).2, f.alike_plan definition, ?_⟩
  unfold afterBuild Builds
  cases hbuild : f.build definition now with
  | mk answer g =>
    have hg : g = { f with lookups := (f.plan definition).2 } := by
      rw [build_eq] at hbuild
      exact (Prod.mk.inj hbuild).2.symm
    subst hg
    cases answer with
    | ok job => exact .inl ⟨job, rfl, rfl⟩
    | error halt =>
      refine .inr ⟨?_, rfl⟩
      rintro ⟨job, habsurd⟩
      cases habsurd

theorem afterBuild_cases (f : Fleet) (definition : Instance) (now : Instant) :
    ∃ lookups, Lookups.Alike f.storage f.lookups lookups ∧
      ((f.Builds definition now ∧ ∃ job, job.name = definition.name ∧ job.New
          ∧ f.afterBuild definition now = ({ f with lookups } : Fleet).register job)
        ∨ ¬ f.Builds definition now
          ∧ f.afterBuild definition now = ({ f with lookups } : Fleet).countBuildFailure) := by
  obtain ⟨lookups, halike, ⟨job, hbuild, heq⟩ | hfails⟩ := f.afterBuild_outcome definition now
  · obtain ⟨hname, hnew⟩ := build_ok hbuild
    exact ⟨lookups, halike, .inl ⟨⟨job, hbuild⟩, job, hname, hnew, heq⟩⟩
  · exact ⟨lookups, halike, .inr hfails⟩

/-- Building a job does not decide over the next one, and changes neither devices nor storage. -/
theorem afterBuild_keeps (f : Fleet) (definition : Instance) (now : Instant) :
    (f.afterBuild definition now).devices = f.devices
      ∧ ∀ other, (f.afterBuild definition now).Builds other now ↔ f.Builds other now := by
  obtain ⟨lookups, halike, ⟨-, job, -, -, heq⟩ | ⟨-, heq⟩⟩ := f.afterBuild_cases definition now
  · rw [heq]
    exact ⟨rfl, fun _ =>
      builds_congr (f := f) (g := ({ f with lookups } : Fleet).register job) rfl halike rfl rfl⟩
  · rw [heq]
    exact ⟨rfl, fun _ =>
      builds_congr (f := f) (g := ({ f with lookups } : Fleet).countBuildFailure) rfl halike rfl rfl⟩

theorem Fit.afterBuild {f : Fleet} (h : f.Fit) (definition : Instance) (now : Instant) :
    (f.afterBuild definition now).Fit := by
  obtain ⟨lookups, -, ⟨-, job, -, hnew, heq⟩ | ⟨-, heq⟩⟩ := f.afterBuild_cases definition now
  · rw [heq]
    have hlookups : ({ f with lookups } : Fleet).Fit := h.of_eq rfl rfl
    exact hlookups.register hnew
  · rw [heq]
    exact h.of_eq rfl rfl

/-- After a build the live job of an instance is the new one, or it stays. -/
theorem agreesOn_afterBuild (f : Fleet) (definition : Instance) (now : Instant) (name : String) :
    definition.name = name ∧ f.Builds definition now ∧ (f.afterBuild definition now).AgreesOn name
      ∨ ¬ (definition.name = name ∧ f.Builds definition now)
        ∧ (f.afterBuild definition now).jobs.get? name = f.jobs.get? name := by
  obtain ⟨lookups, -, ⟨hbuilds, job, hname, hnew, heq⟩ | ⟨hnot, heq⟩⟩ :=
    f.afterBuild_cases definition now
  · by_cases hk : definition.name = name
    · refine .inl ⟨hk, hbuilds, ?_⟩
      rw [heq, ← hk, ← hname]
      exact agreesOn_register hnew
    · refine .inr ⟨fun h => hk h.1, ?_⟩
      rw [heq, get?_register, hname, if_neg hk]
  · refine .inr ⟨fun h => hnot h.2, ?_⟩
    rw [heq]
    rfl

theorem devices_installAll (f : Fleet) (now : Instant) (instances : List Instance) :
    (f.installAll now instances).2.devices = f.devices := by
  induction instances generalizing f with
  | nil => rfl
  | cons definition rest ih =>
    rw [installAll_cons, ih]
    exact (f.afterBuild_keeps definition now).1

theorem Fit.installAll {f : Fleet} (h : f.Fit) (now : Instant) (instances : List Instance) :
    (f.installAll now instances).2.Fit := by
  induction instances generalizing f with
  | nil => exact h
  | cons definition rest ih =>
    rw [installAll_cons]
    exact ih (h.afterBuild definition now)

/-- The live job of an instance is built anew from some definition, or it stays. -/
theorem agreesOn_installAll (f : Fleet) (now : Instant) (instances : List Instance)
    (name : String) :
    (∃ d ∈ instances, d.name = name ∧ f.Builds d now)
        ∧ (f.installAll now instances).2.AgreesOn name
      ∨ (¬ ∃ d ∈ instances, d.name = name ∧ f.Builds d now)
        ∧ (f.installAll now instances).2.jobs.get? name = f.jobs.get? name := by
  induction instances generalizing f with
  | nil => exact .inr ⟨by simp, rfl⟩
  | cons definition rest ih =>
    obtain ⟨hdevices, hbuilds⟩ := f.afterBuild_keeps definition now
    have hrest := ih (f.afterBuild definition now)
    simp only [hbuilds] at hrest
    rw [installAll_cons]
    simp only [List.mem_cons, exists_eq_or_imp]
    rcases hrest with ⟨hlater, hagrees⟩ | ⟨hnever, hstays⟩
    · exact .inl ⟨.inr hlater, hagrees⟩
    · -- no later definition builds the job again, so the first one decides
      rcases f.agreesOn_afterBuild definition now name with ⟨hname, hbuilt, hagrees⟩ | ⟨hnot, hkeeps⟩
      · refine .inl ⟨.inl ⟨hname, hbuilt⟩, (agreesOn_congr hstays fun uuid => ?_).2 hagrees⟩
        rw [post?, post?, devices_installAll]
      · refine .inr ⟨?_, hstays.trans hkeeps⟩
        rintro (hnow | hlater)
        · exact hnot hnow
        · exact hnever hlater

/-- The fleet when stored devices and instances are loaded, before the first job is built. -/
def loaded (f : Fleet) (devices : List Device) (instances : List Instance) : Fleet :=
  { f with
    definitions := instances.foldl Table.insert f.definitions
    devices := devices.foldl Table.insert f.devices }

theorem start_ok {f : Fleet} {devices : List Device} {instances : List Instance} (now : Instant)
    (hdevices : f.storage.devices = .ok devices) (hinstances : f.storage.instances = .ok instances) :
    (f.start now).2 = ((f.loaded devices instances).installAll now instances).2.refreshSize := by
  unfold start
  rw [hdevices, hinstances]
  rfl

/-- A start changes nothing, or it loads what is stored and builds the jobs. -/
theorem start_cases (f : Fleet) (now : Instant) :
    (∃ devices instances, f.storage.devices = .ok devices ∧ f.storage.instances = .ok instances
        ∧ (f.start now).2 = ((f.loaded devices instances).installAll now instances).2.refreshSize)
      ∨ (¬ ∃ devices instances,
          f.storage.devices = .ok devices ∧ f.storage.instances = .ok instances)
        ∧ (f.start now).2 = f := by
  cases hdevices : f.storage.devices with
  | error error =>
    refine .inr ⟨by simp, ?_⟩
    unfold start
    rw [hdevices]
  | ok devices =>
    cases hinstances : f.storage.instances with
    | error error =>
      refine .inr ⟨by simp, ?_⟩
      unfold start
      rw [hdevices, hinstances]
    | ok instances => exact .inl ⟨devices, instances, rfl, rfl, start_ok now hdevices hinstances⟩

/-- A job stays live through a start, since no stored definition of it can be built, while the stored
    rows change which devices work for its instance. -/
def Misses (f : Fleet) (now : Instant) : Prop :=
  ∃ devices instances, f.storage.devices = .ok devices ∧ f.storage.instances = .ok instances ∧
    ∃ name uuid, f.jobs.has name = true ∧ (¬ ∃ d ∈ instances, d.name = name ∧ f.Builds d now)
      ∧ ¬ (f.post? uuid = some name ↔ (f.loaded devices instances).post? uuid = some name)

theorem Fit.start {f : Fleet} (h : f.Fit) (now : Instant) : (f.start now).2.Fit := by
  obtain ⟨devices, instances, -, -, heq⟩ | ⟨-, heq⟩ := f.start_cases now
  · rw [heq]
    have hloaded : (f.loaded devices instances).Fit := h.of_eq rfl rfl
    exact (hloaded.installAll now instances).of_eq rfl rfl
  · rw [heq]
    exact h

/-- A start keeps the two places in agreement exactly when no live job misses a stored row. -/
theorem agrees_start_iff {f : Fleet} (h : f.InOrder) (now : Instant) :
    (f.start now).2.Agrees ↔ ¬ f.Misses now := by
  obtain ⟨devices, instances, hdevices, hinstances, heq⟩ | ⟨hnone, heq⟩ := f.start_cases now
  · -- loading rows does not decide over what can be built
    have hbuilds : ∀ d, (f.loaded devices instances).Builds d now ↔ f.Builds d now :=
      fun d => builds_congr rfl .refl rfl rfl
    have hpost : ∀ uuid, (f.start now).2.post? uuid = (f.loaded devices instances).post? uuid := by
      intro uuid
      rw [heq]
      show ((f.loaded devices instances).installAll now instances).2.post? uuid = _
      rw [post?, devices_installAll, post?]
    have hname : ∀ name, (f.start now).2.AgreesOn name ↔
        ((∃ d ∈ instances, d.name = name ∧ f.Builds d now)
          ∨ (f.jobs.has name = true → ∀ uuid, f.post? uuid = some name
              ↔ (f.loaded devices instances).post? uuid = some name)) := by
      intro name
      have hinstalled := (f.loaded devices instances).agreesOn_installAll now instances name
      simp only [hbuilds] at hinstalled
      rcases hinstalled with ⟨hbuilt, hagrees⟩ | ⟨hnever, hstays⟩
      · rw [heq]
        exact iff_of_true hagrees (.inl hbuilt)
      · have hjob : (f.start now).2.jobs.get? name = f.jobs.get? name := by
          rw [heq]
          exact hstays
        rw [agreesOn_iff_of_job_eq (h.agrees name) hjob]
        simp only [hpost, hnever, false_or]
    constructor
    · rintro hafter ⟨devices', instances', hdevices', hinstances', name, uuid, hlive, hnever, hdiffer⟩
      obtain rfl := Except.ok.inj (hdevices.symm.trans hdevices')
      obtain rfl := Except.ok.inj (hinstances.symm.trans hinstances')
      rcases (hname name).1 (hafter name) with hbuilt | hsame
      · exact hnever hbuilt
      · exact hdiffer (hsame hlive uuid)
    · intro hnot name
      refine (hname name).2 ?_
      by_cases hbuilt : ∃ d ∈ instances, d.name = name ∧ f.Builds d now
      · exact .inl hbuilt
      · refine .inr fun hlive uuid => Classical.byContradiction fun hdiffer => hnot ?_
        exact ⟨devices, instances, hdevices, hinstances, name, uuid, hlive, hbuilt, hdiffer⟩
  · rw [heq]
    refine iff_of_true h.agrees ?_
    rintro ⟨devices, instances, hdevices, hinstances, -⟩
    exact hnone ⟨devices, instances, hdevices, hinstances⟩

theorem inOrder_of_no_jobs {f : Fleet} (hjobs : f.jobs = .empty) (hends : f.storage.hanging = []) :
    f.InOrder := by
  have hnone : ∀ name, f.jobs.get? name = none := fun name => by rw [hjobs, Table.get?_empty]
  refine ⟨⟨fun name job hjob => ?_, hends⟩, fun name => agreesOn_of_no_job (hnone name)⟩
  rw [hnone] at hjob
  cases hjob

theorem InOrder.stop {f : Fleet} (h : f.InOrder) : f.stop.InOrder :=
  inOrder_of_no_jobs rfl h.ends

/-- A fleet that is stopped first has no live job that could miss a stored row. -/
theorem InOrder.restart {f : Fleet} (h : f.InOrder) (now : Instant) : (f.restart now).2.InOrder := by
  have hstopped : ({ f.stop with lookups := f.stop.lookups.refresh } : Fleet).InOrder :=
    inOrder_of_no_jobs rfl h.ends
  refine ⟨hstopped.toFit.start now, (agrees_start_iff hstopped now).2 ?_⟩
  -- nothing is live that could be missed
  rintro ⟨-, -, -, -, name, -, hlive, -⟩
  cases hlive

end Fleet

end ScanFleet
