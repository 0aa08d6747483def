import ScanFleet.Fleet.Devices
import ScanFleet.Fleet.Instances

set_option autoImplicit false

/-! # Devices and the jobs that they are attached to

A fleet says in two places for which instance a device works: in the table of its devices and in the
crews of its live jobs. Every operation changes the two places one after the other. `Fleet.Agrees`
says that they agree. Each operation is described by what it does to the instance of a device
(`Fleet.post?`) and to the crew of a live job (`Fleet.attached?`); whether the two places agree
afterwards is read off from that. -/

namespace ScanFleet

/-! ## Crews -/

namespace Job

theorem broken_order (j : Job) (f : Patrol → Patrol) : (j.order f).broken = j.broken := by
  rw [order_eq]

theorem broken_attach (j : Job) (uuid : String) : (j.attach uuid).broken = j.broken :=
  j.broken_order _

theorem broken_detach (j : Job) (uuid : String) : (j.detach uuid).broken = j.broken :=
  j.broken_order _

theorem has_crew_attach {j : Job} (h : j.broken = false) (uuid other : String) :
    (j.attach uuid).patrol.crew.has other = (decide (uuid = other) || j.patrol.crew.has other) := by
  simp only [attach, order, h, Patrol.attach]
  exact j.patrol.crew.has_insert uuid other

theorem has_crew_detach {j : Job} (h : j.broken = false) (uuid other : String) :
    (j.detach uuid).patrol.crew.has other
      = (decide (uuid ≠ other) && j.patrol.crew.has other) := by
  simp only [detach, order, h, Patrol.detach]
  exact j.patrol.crew.has_erase uuid other

/-- The job after devices are attached to it one by one. -/
def attachAll (j : Job) (devices : List Device) : Job :=
  devices.foldl (fun job device => job.attach device.uuid) j

theorem key_attachAll (j : Job) (devices : List Device) : key (j.attachAll devices) = key j := by
  induction devices generalizing j with
  | nil => rfl
  | cons d rest ih => exact (ih (j.attach d.uuid)).trans (j.key_order _)

theorem broken_attachAll (j : Job) (devices : List Device) :
    (j.attachAll devices).broken = j.broken := by
  induction devices generalizing j with
  | nil => rfl
  | cons d rest ih => exact (ih (j.attach d.uuid)).trans (j.broken_attach d.uuid)

theorem has_crew_attachAll {j : Job} (h : j.broken = false) (devices : List Device)
    (uuid : String) :
    (j.attachAll devices).patrol.crew.has uuid = true
      ↔ j.patrol.crew.has uuid = true ∨ ∃ d ∈ devices, d.uuid = uuid := by
  induction devices generalizing j with
  | nil => simp [attachAll]
  | cons d rest ih =>
    -- the job goes on with `d` attached, so the hypothesis is needed for that job
    have hd : (j.attach d.uuid).broken = false := (j.broken_attach d.uuid).trans h
    refine (ih hd).trans ?_
    rw [has_crew_attach h]
    simp only [Bool.or_eq_true, decide_eq_true_eq, List.mem_cons, exists_eq_or_imp]
    constructor
    · rintro ((heq | hold) | hrest)
      · exact .inr (.inl heq)
      · exact .inl hold
      · exact .inr (.inr hrest)
    · rintro (hold | heq | hrest)
      · exact .inl (.inr hold)
      · exact .inl (.inl heq)
      · exact .inr hrest

/-- A job as it is built: it is not broken, and no device is attached to it. -/
structure New (j : Job) : Prop where
  unbroken : j.broken = false
  unmanned : j.patrol.crew = .empty

/-- A job that takes orders and hands out tasks. -/
structure AtWork (j : Job) : Prop where
  unbroken : j.broken = false
  running : j.stopped = false

end Job

namespace Fleet

/-- The instance that a device of the fleet works for. -/
def post? (f : Fleet) (uuid : String) : Option String :=
  (f.devices.get? uuid).bind (·.instanceName)

/-- Whether a device is attached to the live job of an instance, if there is a live job. -/
def attached? (f : Fleet) (name uuid : String) : Option Bool :=
  (f.jobs.get? name).map (·.patrol.crew.has uuid)

/-- The devices attached to the live job of an instance are those that work for the instance. -/
def AgreesOn (f : Fleet) (name : String) : Prop :=
  ∀ job, f.jobs.get? name = some job →
    ∀ uuid, job.patrol.crew.has uuid = true ↔ ∃ device ∈ f.crew name, device.uuid = uuid

/-- The devices attached to each live job are those that work for its instance. -/
def Agrees (f : Fleet) : Prop := ∀ name, f.AgreesOn name

/-- No live job is broken, and every write comes to an end. -/
structure Fit (f : Fleet) : Prop where
  unbroken : ∀ name job, f.jobs.get? name = some job → job.broken = false
  ends : f.storage.hanging = []

/-! ## The two places -/

theorem mem_crew_iff {f : Fleet} {name : String} {device : Device} :
    device ∈ f.crew name
      ↔ f.devices.get? device.uuid = some device ∧ device.instanceName = some name := by
  rw [crew, List.mem_filter]
  constructor
  · rintro ⟨hmem, hworks⟩
    exact ⟨Table.get?_of_mem hmem, by simpa [Device.worksFor] using hworks⟩
  · rintro ⟨hget, hname⟩
    exact ⟨Table.mem_of_get? hget, by simpa [Device.worksFor] using hname⟩

theorem exists_mem_crew_iff {f : Fleet} {name uuid : String} :
    (∃ device ∈ f.crew name, device.uuid = uuid) ↔ f.post? uuid = some name := by
  rw [post?, Option.bind_eq_some_iff]
  constructor
  · rintro ⟨device, hmem, rfl⟩
    exact ⟨device, mem_crew_iff.1 hmem⟩
  · rintro ⟨device, hget, hname⟩
    obtain rfl : device.uuid = uuid := Table.key_of_get? hget
    exact ⟨device, mem_crew_iff.2 ⟨hget, hname⟩, rfl⟩

theorem agreesOn_iff {f : Fleet} {name : String} :
    f.AgreesOn name ↔
      ∀ uuid b, f.attached? name uuid = some b → (b = true ↔ f.post? uuid = some name) := by
  constructor
  · intro h uuid b hb
    obtain ⟨job, hjob, rfl⟩ := Option.map_eq_some_iff.1 hb
    exact (h job hjob uuid).trans exists_mem_crew_iff
  · intro h job hjob uuid
    have hb : f.attached? name uuid = some (job.patrol.crew.has uuid) := by
      rw [attached?, hjob, Option.map_some]
    exact (h uuid _ hb).trans exists_mem_crew_iff.symm

theorem attached?_isSome (f : Fleet) (name uuid : String) :
    (f.attached? name uuid).isSome = f.jobs.has name := by
  rw [attached?, Option.isSome_map, Table.has]

/-- What is said of an instance depends on its live job and on who works for it. -/
theorem agreesOn_congr {f g : Fleet} {name : String} (hjob : g.jobs.get? name = f.jobs.get? name)
    (hpost : ∀ uuid, g.post? uuid = some name ↔ f.post? uuid = some name) :
    g.AgreesOn name ↔ f.AgreesOn name := by
  rw [agreesOn_iff, agreesOn_iff]
  simp only [attached?, hjob, hpost]

theorem agreesOn_of_no_job {f : Fleet} {name : String} (h : f.jobs.get? name = none) :
    f.AgreesOn name := by
  intro job hjob
  rw [h] at hjob
  cases hjob

/-- Where the two places agree, the crew of a live job is told by the table of devices. -/
theorem AgreesOn.attached?_eq {f : Fleet} {name : String} (h : f.AgreesOn name)
    (hlive : f.jobs.has name = true) (uuid : String) :
    f.attached? name uuid = some (decide (f.post? uuid = some name)) := by
  rw [← attached?_isSome f name uuid] at hlive
  obtain ⟨b, hb⟩ := Option.isSome_iff_exists.1 hlive
  rw [hb, Option.some_inj, Bool.eq_iff_iff, decide_eq_true_iff]
  exact agreesOn_iff.1 h uuid b hb

/-- When a live job stays and its crew changes, the two places still agree exactly when the crew
    changes as the table of devices does. -/
theorem agreesOn_iff_of_change {f g : Fleet} {name : String} (h : f.AgreesOn name)
    {change : String → Bool → Bool}
    (hchange : ∀ uuid, g.attached? name uuid = (f.attached? name uuid).map (change uuid)) :
    g.AgreesOn name ↔
      (f.jobs.has name = true →
        ∀ uuid, change uuid (decide (f.post? uuid = some name))
          = decide (g.post? uuid = some name)) := by
  rw [agreesOn_iff]
  constructor
  · intro hg hlive uuid
    rw [Bool.eq_iff_iff, decide_eq_true_iff]
    exact hg uuid _ (by rw [hchange, h.attached?_eq hlive, Option.map_some])
  · intro hg uuid b hb
    -- the crew after the change tells that there was a live job before it
    have hlive : f.jobs.has name = true := by
      rw [← attached?_isSome f name uuid, ← Option.isSome_map, ← hchange, hb, Option.isSome_some]
    rw [hchange, h.attached?_eq hlive, Option.map_some, Option.some_inj, hg hlive] at hb
    rw [← hb, decide_eq_true_iff]

/-- When a live job stays as it is, the two places still agree exactly when the same devices work for
    its instance. -/
theorem agreesOn_iff_of_job_eq {f g : Fleet} {name : String} (h : f.AgreesOn name)
    (hjob : g.jobs.get? name = f.jobs.get? name) :
    g.AgreesOn name ↔
      (f.jobs.has name = true →
        ∀ uuid, f.post? uuid = some name ↔ g.post? uuid = some name) := by
  have hkept : ∀ uuid, g.attached? name uuid
      = (f.attached? name uuid).map ((fun _ before => before) uuid) := by
    intro uuid
    rw [attached?, hjob, Option.map_id', attached?]
  rw [agreesOn_iff_of_change h hkept]
  simp only [decide_eq_decide]

/-- A fleet with the same live jobs and the same devices agrees when this one does. -/
theorem Agrees.of_eq {f g : Fleet} (h : f.Agrees) (hjobs : g.jobs = f.jobs)
    (hdevices : g.devices = f.devices) : g.Agrees := by
  intro name
  refine (agreesOn_congr (by rw [hjobs]) fun uuid => ?_).2 (h name)
  rw [post?, post?, hdevices]

/-- A fleet with the same live jobs and the same pending writes is fit when this one is. -/
theorem Fit.of_eq {f g : Fleet} (h : f.Fit) (hjobs : g.jobs = f.jobs)
    (hends : g.storage.hanging = f.storage.hanging) : g.Fit where
  unbroken := by
    rw [hjobs]
    exact h.unbroken
  ends := hends.trans h.ends

theorem Fit.withDevices {f : Fleet} (h : f.Fit) (devices : Table Device) :
    ({ f with devices } : Fleet).Fit :=
  h.of_eq rfl rfl

theorem Fit.withStorage {f : Fleet} (h : f.Fit) {storage : Storage} (hends : storage.hanging = []) :
    ({ f with storage } : Fleet).Fit :=
  ⟨h.unbroken, hends⟩

/-! ## Changes of the devices -/

theorem post?_insert (f : Fleet) (device : Device) (uuid : String) :
    ({ f with devices := f.devices.insert device } : Fleet).post? uuid
      = if device.uuid = uuid then device.instanceName else f.post? uuid := by
  simp only [post?, Table.get?_insert]
  by_cases h : device.uuid = uuid
  · have hkey : key device = uuid := h
    rw [if_pos hkey, if_pos h, Option.bind_some]
  · have hkey : ¬ key device = uuid := h
    rw [if_neg hkey, if_neg h]

theorem post?_erase (f : Fleet) (uuid other : String) :
    ({ f with devices := f.devices.erase uuid } : Fleet).post? other
      = if uuid = other then none else f.post? other := by
  simp only [post?, Table.get?_erase]
  by_cases h : uuid = other
  · rw [if_pos h, if_pos h, Option.bind_none]
  · rw [if_neg h, if_neg h]

theorem post?_eq_none_of_not_has {f : Fleet} {uuid : String} (h : f.devices.has uuid = false) :
    f.post? uuid = none := by
  have hget : f.devices.get? uuid = none := by simpa [Table.has] using h
  rw [post?, hget, Option.bind_none]

/-! ## Attaching and detaching -/

theorem post?_attach (f : Fleet) (name : Option String) (uuid other : String) :
    (f.attach name uuid).post? other = f.post? other := by
  rw [attach_eq]
  rfl

theorem post?_detach (f : Fleet) (name : Option String) (uuid other : String) :
    (f.detach name uuid).post? other = f.post? other := by
  rw [detach_eq]
  rfl

/-- A change of the job of an instance is a change of its crew. -/
theorem attached?_onJob {f : Fleet} (h : f.Fit) (name : String) {change : Job → Job}
    (hkey : ∀ job, key (change job) = key job) {other : String} {crew : Bool → Bool}
    (hcrew : ∀ job, job.broken = false →
      (change job).patrol.crew.has other = crew (job.patrol.crew.has other)) (k : String) :
    (f.onJob name change).attached? k other
      = (f.attached? k other).map fun before => if k = name then crew before else before := by
  rw [attached?, get?_onJob f name hkey, attached?]
  cases hjob : f.jobs.get? k with
  | none => simp
  | some job =>
    by_cases hk : k = name
    · simp [hk, hcrew job (h.unbroken k job hjob)]
    · simp [hk]

/-- Attaching adds the device to the crew of the instance. -/
theorem attached?_attach {f : Fleet} (h : f.Fit) (name : Option String) (uuid k other : String) :
    (f.attach name uuid).attached? k other
      = (f.attached? k other).map (decide (name = some k ∧ uuid = other) || ·) := by
  cases name with
  | none => simp [attach]
  | some name =>
    refine (attached?_onJob h name (fun job => job.key_order _)
      (fun _ hjob => Job.has_crew_attach hjob uuid other) k).trans ?_
    by_cases hk : k = name
    · simp [hk]
    · simp [hk, Ne.symm hk]

/-- Detaching takes the device from the crew of the instance. -/
theorem attached?_detach {f : Fleet} (h : f.Fit) (name : Option String) (uuid k other : String) :
    (f.detach name uuid).attached? k other
      = (f.attached? k other).map (!decide (name = some k ∧ uuid = other) && ·) := by
  cases name with
  | none => simp [detach]
  | some name =>
    refine (attached?_onJob h name (fun job => job.key_order _)
      (fun _ hjob => Job.has_crew_detach hjob uuid other) k).trans ?_
    by_cases hk : k = name
    · simp [hk]
    · simp [hk, Ne.symm hk]

theorem Fit.onJob {f : Fleet} (h : f.Fit) (name : String) {change : Job → Job}
    (hkey : ∀ job, key (change job) = key job) (hbroken : ∀ job, (change job).broken = job.broken) :
    (f.onJob name change).Fit where
  unbroken k job hjob := by
    rw [get?_onJob f name hkey] at hjob
    split at hjob
    · obtain ⟨former, hformer, rfl⟩ := Option.map_eq_some_iff.1 hjob
      exact (hbroken former).trans (h.unbroken k former hformer)
    · exact h.unbroken k job hjob
  ends := by
    rw [onJob_eq]
    exact h.ends

theorem Fit.attach {f : Fleet} (h : f.Fit) (name : Option String) (uuid : String) :
    (f.attach name uuid).Fit := by
  cases name with
  | none => exact h
  | some name => exact h.onJob name (fun job => job.key_order _) fun job => job.broken_attach uuid

theorem Fit.detach {f : Fleet} (h : f.Fit) (name : Option String) (uuid : String) :
    (f.detach name uuid).Fit := by
  cases name with
  | none => exact h
  | some name => exact h.onJob name (fun job => job.key_order _) fun job => job.broken_detach uuid

/-! ## Making a job live -/

theorem get?_register (f : Fleet) (job : Job) (name : String) :
    (f.register job).jobs.get? name
      = if job.name = name then some (job.attachAll (f.crew job.name)) else f.jobs.get? name := by
  refine (Table.get?_insert _ (job.attachAll (f.crew job.name)) name).trans ?_
  rw [Job.key_attachAll]
  rfl

theorem Fit.register {f : Fleet} (h : f.Fit) {job : Job} (hnew : job.New) :
    (f.register job).Fit where
  unbroken k live hlive := by
    rw [get?_register] at hlive
    split at hlive
    · obtain rfl := Option.some.inj hlive
      exact (job.broken_attachAll _).trans hnew.unbroken
    · exact h.unbroken k live hlive
  ends := h.ends

/-- A job that is made live has the devices that work for its instance. -/
theorem agreesOn_register {f : Fleet} {job : Job} (hnew : job.New) :
    (f.register job).AgreesOn job.name := by
  intro live hlive uuid
  rw [get?_register, if_pos rfl] at hlive
  obtain rfl := Option.some.inj hlive
  refine (Job.has_crew_attachAll hnew.unbroken _ uuid).trans ?_
  rw [hnew.unmanned]
  constructor
  · rintro (habsurd | hmem)
    · -- nobody is attached to a new job
      cases habsurd
    · exact hmem
  · exact .inr

theorem agreesOn_register_of_ne {f : Fleet} {job : Job} {name : String} (h : job.name ≠ name) :
    (f.register job).AgreesOn name ↔ f.AgreesOn name :=
  agreesOn_congr (by rw [get?_register, if_neg h]) fun _ => Iff.rfl

end Fleet

end ScanFleet
