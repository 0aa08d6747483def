import ScanFleet.Fleet.Clock
import ScanFleet.Proofs.Fleet.Definitions
import ScanFleet.Proofs.Fleet.Equipment
import ScanFleet.Proofs.Job.Run

set_option autoImplicit false

/-! # What holds of every live job

A job becomes live when it is built, and from then on it is attached to devices, asked for work and for
its status, told of sightings, and at worst broken. What holds of a job that is built, and is kept by
all that (`Job.Lasting`), holds of every live job of a fleet, whatever the fleet is asked. -/

namespace ScanFleet

/-- A property that jobs are built with, and that nothing takes away from them. -/
structure Job.Lasting (P : Job → Prop) : Prop where
  built : ∀ {builder : JobBuilder} {plan : JobPlan} {clock : Instant} {j : Job},
    builder.build plan clock = .ok j → P j
  unmanned : ∀ {j k : Job}, P j → k.unmanned = j.unmanned → P k
  act : ∀ {j : Job} (a : JobAct), P j → P (j.act a).2
  status : ∀ {j : Job} (now : Instant), P j → P (j.status now).2
  broken : ∀ {j : Job}, P j → P { j with broken := true }

namespace Fleet

/-- Every live job has the property. -/
def AllLive (P : Job → Prop) (f : Fleet) : Prop := ∀ name job, f.jobs.get? name = some job → P job

variable {P : Job → Prop} {f g : Fleet}

theorem exists_builder_of_build {definition : Instance} {now : Instant} {job : Job}
    (h : (f.build definition now).1 = .ok job) :
    ∃ builder : JobBuilder, ∃ plan, builder.build plan now = .ok job := by
  obtain ⟨plan, -, hbuild⟩ := plan_of_build h
  unfold BuilderRoster.build at hbuild
  split at hbuild
  · cases hbuild
  · exact ⟨_, plan, hbuild⟩

theorem allLive_of_no_jobs (h : f.jobs = .empty) : f.AllLive P := by
  intro name job hjob
  rw [h] at hjob
  cases hjob

namespace AllLive

theorem of_jobs_eq (hf : f.AllLive P) (h : g.jobs = f.jobs) : g.AllLive P := by
  intro name job hjob
  rw [h] at hjob
  exact hf name job hjob

/-- A job goes on under its name, or takes the place of another. -/
theorem insert (hf : f.AllLive P) {job : Job} (hjob : P job) :
    ({ f with jobs := f.jobs.insert job } : Fleet).AllLive P := by
  intro name live hlive
  have hlive : (f.jobs.insert job).get? name = some live := hlive
  rw [Table.get?_insert] at hlive
  split at hlive
  · obtain rfl := Option.some.inj hlive
    exact hjob
  · exact hf name live hlive

theorem erase (hf : f.AllLive P) {name : String} (h : g.jobs = f.jobs.erase name) : g.AllLive P := by
  intro k live hlive
  rw [h, Table.get?_erase] at hlive
  split at hlive
  · cases hlive
  · exact hf k live hlive

theorem map (hf : f.AllLive P) {change : Job → Job} (hkey : ∀ job, key (change job) = key job)
    (hchange : ∀ job, P job → P (change job)) :
    ({ f with jobs := f.jobs.map change hkey } : Fleet).AllLive P := by
  intro name live hlive
  have hlive : (f.jobs.map change hkey).get? name = some live := hlive
  rw [Table.get?_map] at hlive
  obtain ⟨job, hjob, rfl⟩ := Option.map_eq_some_iff.1 hlive
  exact hchange job (hf name job hjob)

theorem removeInstance (hf : f.AllLive P) (name : String) :
    (f.removeInstance name).2.AllLive P := by
  obtain ⟨-, heq⟩ | ⟨answer, storage, metrics, heq⟩ := f.removeInstance_cases name
  · rw [heq]
    exact hf
  · rw [heq]
    exact hf.erase rfl

theorem locate (hf : f.AllLive P) (uuid : String) (place : Coordinate) (now : Instant) :
    (f.locate uuid place now).2.AllLive P := by
  unfold Fleet.locate
  split
  · exact hf
  · exact hf.of_jobs_eq rfl

/-- Somebody who holds a job acts on it. A retired job does not come back. -/
theorem keepHeld (hf : f.AllLive P) {handle : JobHandle} {job after : Job}
    (hheld : f.held? handle = some job) (hafter : P job → P after) :
    (f.keepHeld handle after).AllLive P := by
  unfold Fleet.keepHeld
  split
  · exact hf.of_jobs_eq rfl
  · rename_i hlive
    have hnone : (f.formerJobs handle.name)[handle.generation]? = none :=
      List.getElem?_eq_none (Nat.le_of_not_lt hlive)
    rw [held?, hnone, Option.none_or] at hheld
    exact hf.insert (hafter (hf handle.name job hheld))

end AllLive

end Fleet

namespace Job.Lasting

open Fleet

variable {P : Job → Prop} {f g : Fleet}

theorem of_sameWork (h : Lasting P) (hf : f.AllLive P) (hsame : f.SameWork g) : g.AllLive P := by
  intro name job hjob
  obtain ⟨former, hformer, hunmanned⟩ := hsame.exists_job hjob
  exact h.unmanned (hf name former hformer) hunmanned

/-! ## Instances -/

theorem register (h : Lasting P) (hf : f.AllLive P) {job : Job} (hjob : P job) :
    (f.register job).AllLive P := by
  intro name live hlive
  rw [get?_register] at hlive
  split at hlive
  · obtain rfl := Option.some.inj hlive
    exact h.unmanned hjob (job.unmanned_attachAll _)
  · exact hf name live hlive

theorem registerBuilt (h : Lasting P) (hf : f.AllLive P) {definition : Instance} {now : Instant}
    {job : Job} (hbuild : (f.build definition now).1 = .ok job) (lookups : Lookups) :
    (({ f with lookups } : Fleet).register job).AllLive P := by
  obtain ⟨builder, plan, hbuilder⟩ := exists_builder_of_build hbuild
  exact h.register (hf.of_jobs_eq rfl) (h.built hbuilder)

theorem install (h : Lasting P) (hf : f.AllLive P) (definition : Instance) (now : Instant) :
    (f.install definition now).2.AllLive P := by
  obtain ⟨job, lookups, hbuild, heq⟩ | ⟨halt, lookups, metrics, -, heq⟩ :=
    f.install_outcome definition now
  · rw [heq]
    exact (h.registerBuilt hf hbuild lookups).of_jobs_eq rfl
  · rw [heq]
    exact hf.of_jobs_eq rfl

theorem addInstance (h : Lasting P) (hf : f.AllLive P) (definition : Instance) (now : Instant) :
    (f.addInstance definition now).2.AllLive P := by
  have hdefined : ({ f with definitions := f.definitions.insert definition } : Fleet).AllLive P :=
    hf.of_jobs_eq rfl
  exact h.install hdefined definition now

theorem replaceInstance (h : Lasting P) (hf : f.AllLive P) (definition : Instance) (old : String)
    (now : Instant) : (f.replaceInstance definition old now).2.AllLive P := by
  obtain ⟨storage, heq⟩ | ⟨storage, lookups, heq⟩ := f.replaceInstance_cases definition old now
  · rw [heq]
    exact hf.erase rfl
  · rw [heq]
    exact h.install (hf.erase rfl) definition now

theorem installAll (h : Lasting P) (hf : f.AllLive P) (now : Instant) (instances : List Instance) :
    (f.installAll now instances).2.AllLive P := by
  induction instances generalizing f with
  | nil => exact hf
  | cons definition rest ih =>
    rw [installAll_cons]
    obtain ⟨lookups, -, ⟨job, hbuild, heq⟩ | ⟨-, heq⟩⟩ := f.afterBuild_outcome definition now
    · rw [heq]
      exact ih (h.registerBuilt hf hbuild lookups)
    · rw [heq]
      exact ih (hf.of_jobs_eq rfl)

theorem start (h : Lasting P) (hf : f.AllLive P) (now : Instant) : (f.start now).2.AllLive P := by
  obtain ⟨devices, instances, -, -, heq⟩ | ⟨-, heq⟩ := f.start_cases now
  · rw [heq]
    have hloaded : (f.loaded devices instances).AllLive P := hf.of_jobs_eq rfl
    exact (h.installAll hloaded now instances).of_jobs_eq rfl
  · rw [heq]
    exact hf

/-! ## Work -/

theorem checkIn (h : Lasting P) (hf : f.AllLive P) (uuid : String) (account : Option String)
    (now : Instant) : (f.checkIn uuid account now).2.AllLive P := by
  unfold Fleet.checkIn
  cases hjob : f.jobOf? uuid with
  | none => exact hf
  | some job =>
    obtain ⟨target, -, hlive⟩ := Option.bind_eq_some_iff.1 hjob
    have hafter : P (job.checkIn account now).2 := by
      unfold Job.checkIn
      split
      · exact hf target job hlive
      · exact h.act (.task account now) (hf target job hlive)
    dsimp only
    split
    · exact hf.insert hafter
    · dsimp only
      split
      · exact (hf.insert hafter).of_jobs_eq rfl
      · exact hf.insert hafter

theorem status? (h : Lasting P) (hf : f.AllLive P) (name : String) (now : Instant) :
    (f.status? name now).2.AllLive P := by
  unfold Fleet.status?
  split
  · rename_i job hjob
    exact hf.insert (h.status now (hf name job hjob))
  · exact hf

theorem statusesOf (h : Lasting P) (hf : f.AllLive P) (now : Instant) (instances : List Instance) :
    (f.statusesOf now instances).2.AllLive P := by
  induction instances generalizing f with
  | nil => exact hf
  | cons first rest ih => exact ih (h.status? hf first.name now)

theorem statusesByClock? (h : Lasting P) (hf : f.AllLive P) {now : Instant}
    {statuses : List InstanceStatus} (hstatuses : f.statusesByClock? now = some (statuses, g)) :
    g.AllLive P := by
  unfold Fleet.statusesByClock? Instant.byClock at hstatuses
  split at hstatuses
  · cases hstatuses
  · obtain rfl : (f.statuses now).2 = g := congrArg Prod.snd (Option.some.inj hstatuses)
    exact h.statusesOf hf now _

/-- A report that the clock does not allow breaks a job. -/
theorem breakClockJob (h : Lasting P) (hf : f.AllLive P) : f.breakClockJob.AllLive P := by
  unfold Fleet.breakClockJob
  split
  · rename_i job hjob
    obtain ⟨definition, -, hfound⟩ := List.exists_of_findSome?_eq_some hjob
    obtain ⟨hlive, -⟩ := Option.filter_eq_some_iff.1 hfound
    exact hf.insert (h.broken (hf definition.name job hlive))
  · exact hf

end Job.Lasting

end ScanFleet
