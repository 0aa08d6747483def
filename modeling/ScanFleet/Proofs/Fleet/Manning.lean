import ScanFleet.Proofs.Fleet.Moves
import ScanFleet.Proofs.Fleet.Stable

set_option autoImplicit false

/-! # What moving devices leaves alone

Whoever adds, removes or moves a device changes the crews of live jobs and nothing else about any job:
the same jobs stay live, with the same definitions, and none is stopped or retired
(`Fleet.SameWork`). -/

namespace ScanFleet

namespace Job

/-- A job apart from the devices that are attached to it. -/
def unmanned (j : Job) : Job := { j with patrol := { j.patrol with crew := .empty } }

theorem definition_eq_of_unmanned {j k : Job} (h : j.unmanned = k.unmanned) :
    j.definition = k.definition := by
  have hdefinition : j.unmanned.definition = k.unmanned.definition := by rw [h]
  exact hdefinition

/-- The devices that are attached to a job do not decide whether it is at work. -/
theorem AtWork.of_unmanned {j k : Job} (hj : j.AtWork) (h : k.unmanned = j.unmanned) : k.AtWork := by
  have hbroken : k.unmanned.broken = j.unmanned.broken := by rw [h]
  have hstopped : k.unmanned.stopped = j.unmanned.stopped := by rw [h]
  exact ⟨hbroken.trans hj.unbroken, hstopped.trans hj.running⟩

theorem unmanned_attach (j : Job) (uuid : String) : (j.attach uuid).unmanned = j.unmanned := by
  unfold attach order
  split
  · rfl
  · rfl

theorem unmanned_detach (j : Job) (uuid : String) : (j.detach uuid).unmanned = j.unmanned := by
  unfold detach order
  split
  · rfl
  · rfl

theorem unmanned_attachAll (j : Job) (devices : List Device) :
    (j.attachAll devices).unmanned = j.unmanned := by
  induction devices generalizing j with
  | nil => rfl
  | cons d rest ih => exact (ih (j.attach d.uuid)).trans (j.unmanned_attach d.uuid)

end Job

namespace Fleet

/-- Another fleet has the same definitions and the same jobs, up to the devices attached to them. -/
structure SameWork (f g : Fleet) : Prop where
  definitions : g.definitions = f.definitions
  queueLimit : g.queueLimit = f.queueLimit
  retired : g.retired = f.retired
  jobs : ∀ name, (g.jobs.get? name).map Job.unmanned = (f.jobs.get? name).map Job.unmanned

variable {f g h : Fleet}

namespace SameWork

theorem refl (f : Fleet) : f.SameWork f := ⟨rfl, rfl, rfl, fun _ => rfl⟩

theorem trans (hfg : f.SameWork g) (hgh : g.SameWork h) : f.SameWork h where
  definitions := hgh.definitions.trans hfg.definitions
  queueLimit := hgh.queueLimit.trans hfg.queueLimit
  retired := hgh.retired.trans hfg.retired
  jobs name := (hgh.jobs name).trans (hfg.jobs name)

theorem of_eq (hdefinitions : g.definitions = f.definitions) (hlimit : g.queueLimit = f.queueLimit)
    (hretired : g.retired = f.retired) (hjobs : g.jobs = f.jobs) : f.SameWork g :=
  ⟨hdefinitions, hlimit, hretired, fun name => by rw [hjobs]⟩

theorem withDevices (f : Fleet) (devices : Table Device) :
    f.SameWork ({ f with devices } : Fleet) :=
  of_eq rfl rfl rfl rfl

theorem jobs_definition (hfg : f.SameWork g) (name : String) :
    (g.jobs.get? name).map (·.definition) = (f.jobs.get? name).map (·.definition) := by
  have hunmanned := congrArg (Option.map (·.definition)) (hfg.jobs name)
  rwa [Option.map_map, Option.map_map] at hunmanned

/-- To a live job corresponds one that differs by its crew. -/
theorem exists_job (hfg : f.SameWork g) {name : String} {job : Job}
    (hjob : g.jobs.get? name = some job) :
    ∃ former, f.jobs.get? name = some former ∧ job.unmanned = former.unmanned := by
  have hsame := hfg.jobs name
  rw [hjob, Option.map_some] at hsame
  obtain ⟨former, hformer, hunmanned⟩ := Option.map_eq_some_iff.1 hsame.symm
  exact ⟨former, hformer, hunmanned.symm⟩

end SameWork

theorem sameWork_onJob (f : Fleet) (name : String) {change : Job → Job}
    (hkey : ∀ job, key (change job) = key job)
    (hchange : ∀ job, (change job).unmanned = job.unmanned) : f.SameWork (f.onJob name change) where
  definitions := by rw [onJob_eq]
  queueLimit := by rw [onJob_eq]
  retired := by rw [onJob_eq]
  jobs k := by
    rw [get?_onJob f name hkey]
    split
    · rw [Option.map_map]
      exact Option.map_congr fun job _ => hchange job
    · rfl

theorem sameWork_attach (f : Fleet) (name : Option String) (uuid : String) :
    f.SameWork (f.attach name uuid) := by
  cases name with
  | none => exact .refl f
  | some name =>
    exact f.sameWork_onJob name (fun job => job.key_order _) fun job => job.unmanned_attach uuid

theorem sameWork_detach (f : Fleet) (name : Option String) (uuid : String) :
    f.SameWork (f.detach name uuid) := by
  cases name with
  | none => exact .refl f
  | some name =>
    exact f.sameWork_onJob name (fun job => job.key_order _) fun job => job.unmanned_detach uuid

/-! ## Devices -/

theorem sameWork_addDevice (f : Fleet) (device : Device) : f.SameWork (f.addDevice device).2 := by
  unfold addDevice
  split
  · exact .refl f
  · have hfiled := SameWork.withDevices f (f.devices.insert device)
    exact hfiled.trans (sameWork_attach _ device.instanceName device.uuid)

theorem sameWork_removeDevice (f : Fleet) (uuid : String) : f.SameWork (f.removeDevice uuid).2 := by
  unfold removeDevice
  split
  · exact .refl f
  · rename_i device _
    have herased := SameWork.withDevices f (f.devices.erase uuid)
    exact herased.trans (sameWork_detach _ device.instanceName uuid)

theorem sameWork_replaceDevice (f : Fleet) (device : Device) (old : String) :
    f.SameWork (f.replaceDevice device old) := by
  have hfiled := SameWork.withDevices f ((f.devices.erase old).insert device)
  have hleft := hfiled.trans (sameWork_detach _ ((f.devices.get? old).bind (·.instanceName)) old)
  exact hleft.trans (sameWork_attach _ device.instanceName device.uuid)

theorem sameWork_move (f : Fleet) (device : Device) (target : String) :
    f.SameWork (f.move device target).2 := by
  have hfiled := SameWork.withDevices f (f.devices.insert (device.assign (some target)))
  have hout : f.SameWork (f.setOut device target) :=
    hfiled.trans (sameWork_detach _ device.instanceName device.uuid)
  rw [move_eq]
  cases f.storage.write (device.assign (some target)) with
  | hangs => exact hout
  | failed =>
    refine hout.trans (.trans (sameWork_attach _ (some target) device.uuid) ?_)
    exact .of_eq rfl rfl rfl rfl
  | done storage =>
    have hstored : f.SameWork { f.setOut device target with storage } :=
      hout.trans (.of_eq rfl rfl rfl rfl)
    refine hstored.trans (.trans (sameWork_attach _ (some target) device.uuid) ?_)
    exact .of_eq rfl rfl rfl rfl

theorem sameWork_reassign (f : Fleet) (uuid target : String) :
    f.SameWork (f.reassign uuid target).2 := by
  obtain ⟨error, heq, -⟩ | ⟨device, -, -, -, -, heq⟩ | ⟨device, -, -, -, heq⟩ :=
    f.reassign_cases uuid target
  · rw [heq]
    exact .refl f
  · rw [heq]
    exact .of_eq rfl rfl rfl rfl
  · rw [heq]
    exact f.sameWork_move device target

theorem stable_sameWork (f : Fleet) : Stable f.SameWork where
  countTrigger _ hsame := hsame.trans (.of_eq rfl rfl rfl rfl)
  reassign uuid target hsame := hsame.trans (sameWork_reassign _ uuid target)

end Fleet

end ScanFleet
