import ScanFleet.Proofs.Fleet.Whereabouts
import ScanFleet.Proofs.Fleet.Withdrawal

set_option autoImplicit false

/-! # What one order to move changes

A single order to move a device is refused as a whole or followed as a whole. One that is refused, for
whatever reason (`Fleet.Refuses`), changes nothing at all. One that is followed registers its device at
the instance and changes nothing else about devices (`Fleet.Reassigned`); if the device comes from
elsewhere, it leaves the crew of the job that it had, joins that of the new one, its row is written and
its move is counted (`Fleet.Resettled`). Of the jobs nothing but the crews changes, and of the crews
nothing but the place of that device (`Job.Recrewed`). A broken job takes no orders and tells nobody of
its crew; it stays as it is. -/

namespace ScanFleet

/-! ## Crews -/

namespace Job

/-- Only the crew of a job changed, and in the crew only the place of one device. -/
structure Recrewed (uuid : String) (former job : Job) : Prop where
  same : job = { former with patrol := { former.patrol with crew := job.patrol.crew } }
  others : ∀ other, other ≠ uuid → job.patrol.crew.has other = former.patrol.crew.has other
  broken : former.broken = true → job = former

namespace Recrewed

variable {uuid : String} {first second third : Job}

theorem refl (uuid : String) (job : Job) : Recrewed uuid job job :=
  ⟨rfl, fun _ _ => rfl, fun _ => rfl⟩

theorem trans (hfirst : Recrewed uuid first second) (hsecond : Recrewed uuid second third) :
    Recrewed uuid first third where
  same := by
    rw [hsecond.same, hfirst.same]
  others other hne := (hsecond.others other hne).trans (hfirst.others other hne)
  broken hbroken := by
    obtain rfl := hfirst.broken hbroken
    exact hsecond.broken hbroken

theorem broken_eq (h : Recrewed uuid first second) : second.broken = first.broken := by
  rw [h.same]

theorem order (job : Job) {f : Patrol → Patrol}
    (hsame : ∀ patrol, f patrol = { patrol with crew := (f patrol).crew })
    (hothers : ∀ patrol other, other ≠ uuid →
      (f patrol).crew.has other = (patrol : Patrol).crew.has other) :
    Recrewed uuid job (job.order f) := by
  unfold Job.order
  split
  · exact refl uuid job
  · rename_i hunbroken
    refine ⟨?_, hothers job.patrol, fun hbroken => absurd hbroken hunbroken⟩
    rw [hsame job.patrol]

theorem attach (job : Job) (uuid : String) : Recrewed uuid job (job.attach uuid) := by
  refine .order job (fun _ => rfl) fun patrol other hne => ?_
  have hkey : ¬ key uuid = other := Ne.symm hne
  exact (patrol.crew.has_insert uuid other).trans (by simp [hkey])

theorem detach (job : Job) (uuid : String) : Recrewed uuid job (job.detach uuid) := by
  refine .order job (fun _ => rfl) fun patrol other hne => ?_
  exact (patrol.crew.has_erase uuid other).trans (by simp [Ne.symm hne])

end Recrewed

/-- The job of an instance after a device went from one instance to another. -/
def passOn (job : Job) (name uuid : String) (source : Option String) (target : String) : Job :=
  let left := if source = some name then job.detach uuid else job
  if target = name then left.attach uuid else left

section PassOn

variable (job : Job) (name uuid : String) (source : Option String) (target : String)

theorem recrewed_left :
    Recrewed uuid job (if source = some name then job.detach uuid else job) := by
  split
  · exact .detach job uuid
  · exact .refl uuid job

theorem recrewed_passOn : Recrewed uuid job (job.passOn name uuid source target) := by
  by_cases htarget : target = name
  · rw [passOn, if_pos htarget]
    exact (job.recrewed_left name uuid source).trans (.attach _ uuid)
  · rw [passOn, if_neg htarget]
    exact job.recrewed_left name uuid source

variable {job name uuid source}

/-- A device that went on is in the crew of its target, and left that of the instance it came from. -/
theorem has_crew_passOn (hunbroken : job.broken = false)
    (hcame : job.patrol.crew.has uuid = true → source = some name) :
    (job.passOn name uuid source target).patrol.crew.has uuid = true ↔ target = name := by
  by_cases htarget : target = name
  · have hleft : (if source = some name then job.detach uuid else job).broken = false :=
      (job.recrewed_left name uuid source).same ▸ hunbroken
    rw [passOn, if_pos htarget, has_crew_attach hleft]
    simp [htarget]
  · rw [passOn, if_neg htarget]
    refine iff_of_false ?_ htarget
    by_cases hsource : source = some name
    · rw [if_pos hsource, has_crew_detach hunbroken]
      simp
    · rw [if_neg hsource]
      exact fun hcrew => hsource (hcame hcrew)

end PassOn

end Job

namespace Fleet

variable {f g : Fleet}

/-! ## Refused orders -/

/-- Why an order is refused: its instance is not defined, or the device is not known and cannot be read
    from storage, or is not stored either. -/
inductive Refuses (f : Fleet) (uuid target : String) : FleetError → Prop where
  | undefined (hundefined : f.definitions.has target = false) :
      Refuses f uuid target (.instanceNotFound target)
  | unread {error : FleetError} (hdefined : f.definitions.has target = true)
      (hunknown : f.devices.get? uuid = none) (hread : f.storage.device? uuid = .error error) :
      Refuses f uuid target error
  | missing (hdefined : f.definitions.has target = true) (hunknown : f.devices.get? uuid = none)
      (hread : f.storage.device? uuid = .ok none) : Refuses f uuid target (.deviceNotFound uuid)

theorem reassign_of_refuses {uuid target : String} {error : FleetError}
    (h : f.Refuses uuid target error) : f.reassign uuid target = (.error (.failed error), f) := by
  cases h with
  | undefined hundefined => simp [reassign, hundefined]
  | unread hdefined hunknown hread => simp [reassign, recruit, hdefined, hunknown, hread]
  | missing hdefined hunknown hread => simp [reassign, recruit, hdefined, hunknown, hread]

theorem exists_refuses {uuid target : String} (h : f.canFollow uuid target = false) :
    ∃ error, f.Refuses uuid target error := by
  cases hdefined : f.definitions.has target with
  | false => exact ⟨_, .undefined hdefined⟩
  | true =>
    have hreach : f.reach? uuid = none := by simpa [canFollow, hdefined] using h
    obtain ⟨hunknown, hstored⟩ := Option.or_eq_none_iff.1 hreach
    cases hread : f.storage.device? uuid with
    | error error => exact ⟨error, .unread hdefined hunknown hread⟩
    | ok found =>
      cases found with
      | none => exact ⟨_, .missing hdefined hunknown hread⟩
      | some device =>
        -- a device that can be read is not refused
        obtain ⟨error, hrecruit⟩ := recruit_of_not_reach? hreach
        rw [recruit, hunknown, hread] at hrecruit
        cases hrecruit

/-! ## Followed orders -/

/-- A device that comes from elsewhere changed its job. Its row is written, unless writes fail, and the
    move is counted. -/
structure Resettled (f : Fleet) (device : Device) (target : String) (g : Fleet) : Prop where
  crews : ∀ name, Option.Rel (Job.Recrewed device.uuid) (f.jobs.get? name) (g.jobs.get? name)
  /-- Of the jobs that take orders just that of the target has the device. -/
  attached : ∀ name job, g.jobs.get? name = some job → job.broken = false →
    (job.patrol.crew.has device.uuid = true ↔ target = name)
  written : ∀ uuid, g.storage.tables.devices.get? uuid =
    if f.storage.isDown (.updateDevice uuid) = false ∧ device.uuid = uuid then
      some (device.assign (some target))
    else f.storage.tables.devices.get? uuid
  counted : g.metrics = { f.metrics with reassignments := f.metrics.reassignments + 1 }

/-- What an order leaves that sends a device to an instance. Where the device is there already, it is
    registered and all else stays. -/
structure Reassigned (f : Fleet) (device : Device) (target : String) (g : Fleet) : Prop where
  aside : f.Aside g
  registered : ∀ uuid, g.devices.get? uuid =
    if device.uuid = uuid then some (device.assign (some target)) else f.devices.get? uuid
  there : device.instanceName = some target → g = { f with devices := g.devices }
  moved : device.instanceName ≠ some target → f.Resettled device target g

/-- The job that a device leaves, when it sets out. -/
theorem get?_jobs_setOut (f : Fleet) (device : Device) (target name : String) :
    (f.setOut device target).jobs.get? name
      = (f.jobs.get? name).map fun job =>
          if device.instanceName = some name then job.detach device.uuid else job := by
  unfold setOut
  cases device.instanceName with
  | none => simp [detach]
  | some source =>
    rw [get?_detach]
    by_cases hname : name = source
    · simp [hname]
    · simp [hname, Ne.symm hname]

/-- What a move does to the job of an instance. -/
theorem get?_jobs_move {device : Device} (hends : ¬ f.storage.Hangs device.uuid)
    (target name : String) :
    (f.move device target).2.jobs.get? name
      = (f.jobs.get? name).map (·.passOn name device.uuid device.instanceName target) := by
  have hjoins (storage : Storage) :
      (attach { f.setOut device target with storage } (some target) device.uuid).jobs.get? name
        = (f.jobs.get? name).map (·.passOn name device.uuid device.instanceName target) := by
    rw [get?_attach, f.get?_jobs_setOut device target name, Option.map_map]
    by_cases hname : name = target
    · subst hname
      simp [Job.passOn, Function.comp_def]
    · simp [Job.passOn, hname, Ne.symm hname]
  rw [move_eq]
  rcases Storage.write_of_not_hangs (d := device.assign (some target)) hends
    with ⟨hfailed, -⟩ | hdone
  · rw [hfailed]
    exact hjoins (f.setOut device target).storage
  · rw [hdone]
    exact hjoins _

theorem reassigned_of_worksFor {device : Device} {target : String}
    (hworks : device.worksFor target = true) :
    f.Reassigned device target { f with devices := f.devices.insert device } where
  aside := ⟨_, f.storage.tables.devices, f.jobs, f.metrics, rfl⟩
  registered uuid := by
    rw [Device.assign_of_worksFor hworks]
    exact Table.get?_insert _ device uuid
  there _ := rfl
  moved hne := by
    simp [Device.worksFor, hne] at hworks

/-- A device in the crew of a live job works for its instance, by the row that the fleet has of it. -/
theorem instanceName_of_has_crew (h : f.Agrees) {uuid name : String} {device : Device} {job : Job}
    (hreach : f.reach? uuid = some device) (hget : f.jobs.get? name = some job)
    (hcrew : job.patrol.crew.has uuid = true) : device.instanceName = some name := by
  have hpost : f.post? uuid = some name := exists_mem_crew_iff.1 ((h name job hget uuid).1 hcrew)
  obtain ⟨known, hknown, hname⟩ := Option.bind_eq_some_iff.1 hpost
  rw [reach?_of_known hknown] at hreach
  rwa [← Option.some.inj hreach]

theorem reassigned_of_moved (h : f.Agrees) {device : Device} {target : String}
    (hreach : f.reach? device.uuid = some device) (hworks : device.worksFor target = false)
    (hjobs : ∀ name, g.jobs.get? name
      = (f.jobs.get? name).map (·.passOn name device.uuid device.instanceName target))
    (hmoved : f.Moved device target g) : f.Reassigned device target g where
  aside := hmoved.aside
  registered uuid := by
    rw [hmoved.devices]
    exact Table.get?_insert _ (device.assign (some target)) uuid
  there hname := by
    simp [Device.worksFor, hname] at hworks
  moved _ :=
    { crews := fun name => by
        rw [hjobs]
        cases f.jobs.get? name with
        | none => exact .none
        | some job => exact .some (job.recrewed_passOn name device.uuid device.instanceName target)
      attached := fun name job hget hunbroken => by
        rw [hjobs] at hget
        obtain ⟨former, hformer, rfl⟩ := Option.map_eq_some_iff.1 hget
        have hwhole : former.broken = false := by
          rwa [(former.recrewed_passOn name device.uuid device.instanceName target).broken_eq]
            at hunbroken
        exact Job.has_crew_passOn target hwhole fun hcrew =>
          instanceName_of_has_crew h hreach hformer hcrew
      written := fun uuid => by
        rw [hmoved.storage]
        exact Storage.get?_written f.storage (device.assign (some target)) uuid
      counted := hmoved.metrics }

/-- An order is refused and changes nothing, or it is followed, or it waits for a write that hangs. -/
theorem reassign_ends (h : f.Agrees) (uuid target : String) :
    (∃ error, f.Refuses uuid target error ∧ f.canFollow uuid target = false
        ∧ f.reassign uuid target = (.error (.failed error), f))
      ∨ (∃ device g, f.reach? uuid = some device ∧ f.canFollow uuid target = true
        ∧ (f.setsOut uuid target = true → ¬ f.storage.Hangs uuid)
        ∧ f.reassign uuid target = (.ok (), g) ∧ f.Reassigned device target g)
      ∨ f.setsOut uuid target = true ∧ f.storage.Hangs uuid
        ∧ ∃ g, f.reassign uuid target = (.error .stalled, g) := by
  obtain ⟨hnot, -⟩ | ⟨device, hdefined, hreach, hworks, heq⟩
    | ⟨device, g, hdefined, hreach, hworks, hends, heq, hmoved⟩ | hwaits :=
    f.reassign_outcome uuid target
  · obtain ⟨error, hrefuses⟩ := exists_refuses hnot
    exact .inl ⟨error, hrefuses, hnot, reassign_of_refuses hrefuses⟩
  · refine .inr (.inl ⟨device, _, hreach, ?_, fun hsets => ?_, heq, reassigned_of_worksFor hworks⟩)
    · simp [canFollow, hdefined, hreach]
    · simp [setsOut, hreach, hworks] at hsets
  · obtain rfl := uuid_of_device? (device?_of_reach? hreach)
    have hmove : f.reassign device.uuid target = f.move device target := by
      simp [reassign, hdefined, recruit_of_reach? hreach, hworks]
    have hleft : g = (f.move device target).2 := by
      rw [← hmove, heq]
    refine .inr (.inl ⟨device, g, hreach, ?_, fun _ => hends, heq, ?_⟩)
    · simp [canFollow, hdefined, hreach]
    · exact reassigned_of_moved h hreach hworks
        (fun name => hleft ▸ get?_jobs_move hends target name) hmoved
  · exact .inr (.inr hwaits)

theorem reassigned_of_ok (h : f.Agrees) {uuid target : String}
    (hok : f.reassign uuid target = (.ok (), g)) :
    ∃ device, f.reach? uuid = some device ∧ f.canFollow uuid target = true
      ∧ (f.setsOut uuid target = true → ¬ f.storage.Hangs uuid)
      ∧ f.Reassigned device target g := by
  obtain ⟨cause, -, -, heq⟩ | ⟨device, after, hreach, hfollows, hends, heq, hleft⟩
    | ⟨-, -, after, heq⟩ := reassign_ends h uuid target
  · cases heq.symm.trans hok
  · cases heq.symm.trans hok
    exact ⟨device, hreach, hfollows, hends, hleft⟩
  · cases heq.symm.trans hok

/-- An order that fails leaves the whole fleet as it was, and tells why. One that comes to a good end
    registers the device at the instance, be it known or only stored, and if the device comes from
    elsewhere, passes it on from job to job, writes its row and counts it once. It comes to a good end
    exactly when it can be followed and no write is waited for that hangs. -/
theorem reassign_all_or_nothing (h : f.Agrees) (uuid target : String) :
    (∀ error g, f.reassign uuid target = (.error (.failed error), g)
        ↔ f.Refuses uuid target error ∧ g = f)
      ∧ (∀ g, f.reassign uuid target = (.ok (), g) →
        ∃ device, f.reach? uuid = some device ∧ f.Reassigned device target g)
      ∧ ((∃ g, f.reassign uuid target = (.ok (), g)) ↔
        f.canFollow uuid target = true
          ∧ (f.setsOut uuid target = true → ¬ f.storage.Hangs uuid)) := by
  refine ⟨fun error g => ⟨fun hfailed => ?_, ?_⟩, fun g hok => ?_, ⟨?_, ?_⟩⟩
  · obtain ⟨cause, hrefuses, -, heq⟩ | ⟨-, after, -, -, -, heq, -⟩ | ⟨-, -, after, heq⟩ :=
      reassign_ends h uuid target
    · cases heq.symm.trans hfailed
      exact ⟨hrefuses, rfl⟩
    · cases heq.symm.trans hfailed
    · cases heq.symm.trans hfailed
  · rintro ⟨hrefuses, rfl⟩
    exact reassign_of_refuses hrefuses
  · obtain ⟨device, hreach, -, -, hleft⟩ := reassigned_of_ok h hok
    exact ⟨device, hreach, hleft⟩
  · rintro ⟨g, hok⟩
    obtain ⟨-, -, hfollows, hends, -⟩ := reassigned_of_ok h hok
    exact ⟨hfollows, hends⟩
  · rintro ⟨hfollows, hends⟩
    obtain ⟨cause, -, hnot, -⟩ | ⟨-, g, -, -, -, heq, -⟩ | ⟨hsets, hhangs, -⟩ :=
      reassign_ends h uuid target
    · rw [hnot] at hfollows
      cases hfollows
    · exact ⟨g, heq⟩
    · exact absurd hhangs (hends hsets)

/-- Of two started circles the device of the first is sent to the second, and nobody else is sent. -/
theorem reassign_all_or_nothing_startedCircles :
    startedCircles.Agrees
      ∧ startedCircles.reassign "dev-3" "B"
        = (.error (.failed (.deviceNotFound "dev-3")), startedCircles)
      ∧ ∃ g, startedCircles.reassign "dev-1" "B" = (.ok (), g)
        ∧ startedCircles.Resettled { uuid := "dev-1", instanceName := some "A" } "B" g := by
  have hagrees : startedCircles.Agrees := by
    refine (agrees_start_iff (inOrder_of_no_jobs rfl rfl) _).2 ?_
    rintro ⟨-, -, -, -, name, -, hlive, -⟩
    cases hlive
  obtain ⟨hrefused, -, -⟩ := reassign_all_or_nothing hagrees "dev-3" "B"
  obtain ⟨-, hleft, hfollowed⟩ := reassign_all_or_nothing hagrees "dev-1" "B"
  obtain ⟨g, hok⟩ := hfollowed.2
    ⟨by decide +kernel, fun _ hhangs => absurd hhangs.2 (by decide +kernel)⟩
  refine ⟨hagrees, (hrefused _ _).2 ⟨?_, rfl⟩, g, hok, ?_⟩
  · exact .missing (by decide +kernel) (by decide +kernel) rfl
  · obtain ⟨device, hreach, hsent⟩ := hleft g hok
    have hknown : startedCircles.reach? "dev-1"
        = some { uuid := "dev-1", instanceName := some "A" } := by
      decide +kernel
    obtain rfl := Option.some.inj (hknown.symm.trans hreach)
    exact hsent.moved (by decide)

end Fleet

end ScanFleet
