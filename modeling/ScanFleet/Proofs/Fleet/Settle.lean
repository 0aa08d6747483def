import ScanFleet.Fleet.Boot
import ScanFleet.Proofs.Fleet.Instances
import ScanFleet.Proofs.Table

set_option autoImplicit false

/-! # Taking in builds

Builds that have ended are taken in one after another (`Fleet.settleAll`). As long as no two of them
bear one name, and no job is live under any of their names, nothing is retired, and what the fleet
comes to is told without their order: the jobs that were built are live with their crews, and the
others are counted. -/

namespace ScanFleet

namespace Fleet

variable {f : Fleet} {answer : Instance → Except Halt Job}

/-- Takes in the builds of definitions one after another. -/
def settleAll (f : Fleet) (answer : Instance → Except Halt Job) (definitions : List Instance) : Fleet :=
  definitions.foldl (fun f definition => f.settle (answer definition)) f

/-- A job that is built bears the name of its definition. -/
def Names (answer : Instance → Except Halt Job) : Prop :=
  ∀ definition job, answer definition = .ok job → job.name = definition.name

/-- Definitions of different names under which no job is live. -/
structure Vacant (f : Fleet) (definitions : List Instance) : Prop where
  distinct : definitions.Pairwise fun a b => a.name ≠ b.name
  free : ∀ d ∈ definitions, f.jobs.get? d.name = none

theorem Vacant.perm {definitions others : List Instance} (h : f.Vacant definitions)
    (hperm : definitions.Perm others) : f.Vacant others :=
  ⟨hperm.pairwise h.distinct Ne.symm, fun d hd => h.free d (hperm.mem_iff.2 hd)⟩

/-! ## One build -/

/-- Under a name of which no job is live nothing is retired. -/
theorem register_of_vacant {job : Job} (h : f.jobs.get? job.name = none) :
    f.register job = { f with jobs := f.jobs.insert (job.attachAll (f.crew job.name)) } := by
  rw [register, h]
  simp [Job.attachAll]

theorem settle_ok {definition : Instance} {job : Job} (hname : job.name = definition.name)
    (hfree : f.jobs.get? definition.name = none) :
    f.settle (.ok job)
      = { f with jobs := f.jobs.insert (job.attachAll (f.crew definition.name)) } := by
  rw [← hname] at hfree ⊢
  exact register_of_vacant hfree

theorem key_attachAll_crew {definition : Instance} {job : Job} (hname : job.name = definition.name)
    (crew : List Device) : key (job.attachAll crew) = definition.name :=
  (job.key_attachAll crew).trans hname

/-- A job that is built in one go is taken in with what was looked up for it. -/
theorem afterBuild_eq (f : Fleet) (definition : Instance) (now : Instant) :
    f.afterBuild definition now
      = ({ f with lookups := (f.plan definition).2 } : Fleet).settle (f.build definition now).1 := by
  rw [afterBuild, build_eq]
  dsimp only
  split
  · rename_i heq
    obtain ⟨hanswer, rfl⟩ := Prod.mk.inj heq
    rw [hanswer]
    rfl
  · rename_i heq
    obtain ⟨hanswer, rfl⟩ := Prod.mk.inj heq
    rw [hanswer]
    rfl

/-- Taking in a build leaves the other names free. -/
theorem Vacant.settle (hnames : Names answer) {definition : Instance} {rest : List Instance}
    (h : f.Vacant (definition :: rest)) : (f.settle (answer definition)).Vacant rest := by
  obtain ⟨hfirst, hrest⟩ := List.pairwise_cons.1 h.distinct
  refine ⟨hrest, fun d hd => ?_⟩
  have hfree := h.free d (List.mem_cons_of_mem definition hd)
  cases hbuild : answer definition with
  | ok job =>
    have hname := hnames definition job hbuild
    rw [settle_ok hname (h.free definition List.mem_cons_self), Table.get?_insert,
      key_attachAll_crew hname, if_neg (hfirst d hd), hfree]
  | error halt => exact hfree

/-! ## Many builds -/

section

variable (hnames : Names answer) {definitions : List Instance} (h : f.Vacant definitions)

include hnames h

/-- Builds that are taken in change the live jobs and the count of failures. -/
theorem settleAll_eq : f.settleAll answer definitions = { f with
    jobs := (f.settleAll answer definitions).jobs
    metrics := { f.metrics with
      buildFailures := f.metrics.buildFailures
        + definitions.countP fun d => !(answer d).isOk } } := by
  induction definitions generalizing f with
  | nil => rfl
  | cons definition rest ih =>
    refine (ih (h.settle hnames)).trans ?_
    rw [settleAll, settleAll, List.foldl_cons, List.countP_cons]
    cases hbuild : answer definition with
    | ok job =>
      rw [settle_ok (hnames definition job hbuild) (h.free definition List.mem_cons_self)]
      rfl
    | error halt =>
      simp only [settle, countBuildFailure, Metrics.countBuildFailure, Except.isOk, Except.toBool,
        Bool.not_false, if_true, Nat.add_assoc, Nat.add_comm 1]

/-- The jobs that were built are live with their crews. -/
theorem get?_settleAll {name : String} {live : Job} :
    (f.settleAll answer definitions).jobs.get? name = some live ↔ f.jobs.get? name = some live
      ∨ ∃ d ∈ definitions, ∃ job, d.name = name ∧ answer d = .ok job
        ∧ live = job.attachAll (f.crew name) := by
  induction definitions generalizing f with
  | nil => simp [settleAll]
  | cons definition rest ih =>
    have hfree := h.free definition List.mem_cons_self
    refine (ih (h.settle hnames)).trans ?_
    simp only [List.mem_cons, exists_eq_or_imp, ← or_assoc]
    cases hbuild : answer definition with
    | ok job =>
      have hname := hnames definition job hbuild
      rw [settle_ok hname hfree]
      refine or_congr ?_ Iff.rfl
      rw [Table.get?_insert, key_attachAll_crew hname]
      by_cases hsame : definition.name = name
      · subst hsame
        simp [hfree, eq_comm]
      · simp [hsame]
    | error halt => simp [settle, countBuildFailure, crew]

theorem size_settleAll : (f.settleAll answer definitions).jobs.size
    = f.jobs.size + definitions.countP fun d => (answer d).isOk := by
  induction definitions generalizing f with
  | nil => rfl
  | cons definition rest ih =>
    have hfree := h.free definition List.mem_cons_self
    refine (ih (h.settle hnames)).trans ?_
    rw [List.countP_cons]
    cases hbuild : answer definition with
    | ok job =>
      have hname := hnames definition job hbuild
      have hnew : f.jobs.get? (key (job.attachAll (f.crew definition.name))) = none := by
        rw [key_attachAll_crew hname, hfree]
      rw [settle_ok hname hfree, Table.size_insert hnew, Nat.add_right_comm]
      rfl
    | error halt => rfl

/-- In which order builds are taken in makes no difference. -/
theorem settleAll_perm {others : List Instance} (hperm : definitions.Perm others) :
    f.settleAll answer definitions = f.settleAll answer others := by
  have hothers := h.perm hperm
  have hjobs : (f.settleAll answer definitions).jobs = (f.settleAll answer others).jobs := by
    refine Table.ext_get? fun name => Option.ext fun live => ?_
    rw [get?_settleAll hnames h, get?_settleAll hnames hothers]
    simp only [hperm.mem_iff]
  rw [settleAll_eq hnames h, settleAll_eq hnames hothers, hjobs, hperm.countP_eq]

end

end Fleet

end ScanFleet
