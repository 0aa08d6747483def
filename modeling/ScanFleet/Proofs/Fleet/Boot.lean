import ScanFleet.Proofs.Fleet.BuildSteps
import ScanFleet.Proofs.Fleet.Equipment
import ScanFleet.Proofs.Fleet.Settle

set_option autoImplicit false

/-! # Every order of the builds ends alike

The builds of a starting fleet share what is remembered, and are taken in as they end. Whatever the
schedule, each build ends with the verdict that storage has over its definition, so the fleet is told at
any time by which builds were taken in and what is remembered (`Boot.Sound`). Taking them in in another
order makes no difference, and what is remembered in the end is told by storage. So all complete runs
end in one state, that of the run in which the builds take turns as wholes. -/

namespace ScanFleet

/-! ## The same ground -/

namespace Fleet

theorem names_verdict (f : Fleet) (now : Instant) : Names (f.verdict now) :=
  fun _ _ h => BuildStage.name_of_verdict h

/-- Fleets whose builds come to the same. -/
structure SameGround (f g : Fleet) : Prop where
  storage : g.storage = f.storage
  roster : g.roster = f.roster
  queueLimit : g.queueLimit = f.queueLimit
  zones : g.lookups.zones = f.lookups.zones

/-- Taking builds in changes jobs and metrics. -/
theorem settleAll_keeps (f : Fleet) (answer : Instance → Except Halt Job)
    (definitions : List Instance) : f.settleAll answer definitions = { f with
      jobs := (f.settleAll answer definitions).jobs
      retired := (f.settleAll answer definitions).retired
      metrics := (f.settleAll answer definitions).metrics } := by
  induction definitions generalizing f with
  | nil => rfl
  | cons definition rest ih =>
    refine (ih (f.settle (answer definition))).trans ?_
    rw [settleAll, settleAll, List.foldl_cons]
    cases answer definition with
    | ok job => rfl
    | error halt => rfl

theorem settleAll_concat (f : Fleet) (answer : Instance → Except Halt Job)
    (definitions : List Instance) (definition : Instance) :
    f.settleAll answer (definitions ++ [definition])
      = (f.settleAll answer definitions).settle (answer definition) := by
  rw [settleAll, List.foldl_append]
  rfl

/-- What is remembered does not matter when a build is taken in. -/
theorem settle_withLookups (f : Fleet) (lookups : Lookups) (answer : Except Halt Job) :
    ({ f with lookups } : Fleet).settle answer = { f.settle answer with lookups } := by
  cases answer with
  | ok job => rfl
  | error halt => rfl

end Fleet

namespace BuildStage

theorem verdict_congr {f g : Fleet} (h : f.SameGround g) (stage : BuildStage)
    (definition : Instance) (now : Instant) :
    stage.verdict g definition now = stage.verdict f definition now := by
  have hready (area : Area) (list : Option IvList) :
      verdictReady g definition now area list = verdictReady f definition now area list := by
    rw [verdictReady, verdictReady, Lookups.offset?, Lookups.offset?, h.roster, h.queueLimit, h.zones]
  have hnamed (area : Area) (name : String) :
      verdictNamed g definition now area name = verdictNamed f definition now area name := by
    rw [verdictNamed, verdictNamed, h.storage]
    simp only [hready]
  cases stage with
  | geofence found name left fetch =>
    rw [verdict, verdict, verdictFrom, verdictFrom, h.storage]
    simp only [verdictArea, hready, hnamed]
  | ivList area name fetch => exact hnamed area name
  | ready area list => exact hready area list
  | ended answer => rfl

theorem sound_opening {tables : Tables} (definition : Instance) :
    (opening definition).Sound tables := by
  unfold opening
  split
  · exact trivial
  · exact sound_withPayloads _ _

end BuildStage

namespace Boot

variable {now : Instant} {b : Boot} {before after : List BuildTask}

/-! ## Picks -/

/-- The boot after a step of the build of a definition. -/
def advance (b : Boot) (now : Instant) (before after : List BuildTask) (definition : Instance)
    (stage : BuildStage) : Boot :=
  { b with
    fleet := { b.fleet with lookups := (stage.step b.fleet definition now).2 }
    tasks := before ++ ⟨definition, (stage.step b.fleet definition now).1⟩ :: after }

theorem pick_live (now : Instant) {definition : Instance} {stage : BuildStage}
    (hlive : ∀ answer, stage ≠ .ended answer)
    (h : b.tasks = before ++ ⟨definition, stage⟩ :: after) :
    b.pick now before.length = b.advance now before after definition stage := by
  unfold pick advance
  cases stage with
  | ended answer => exact absurd rfl (hlive answer)
  | geofence found name left fetch => simp [h]
  | ivList area name fetch => simp [h]
  | ready area list => simp [h]

theorem pick_ended {definition : Instance} {answer : Except Halt Job}
    (h : b.tasks = before ++ ⟨definition, .ended answer⟩ :: after) :
    b.pick now before.length
      = { b.takeIn before.length definition answer with tasks := before ++ after } := by
  unfold pick takeIn
  simp [h, List.eraseIdx_append_of_length_le]

/-- A pick passes, or a build ends or makes a step. -/
theorem pick_cases (now : Instant) (b : Boot) (k : Nat) :
    (b.tasks.length ≤ k ∧ b.pick now k = b)
      ∨ ∃ before after definition stage, before.length = k
        ∧ b.tasks = before ++ ⟨definition, stage⟩ :: after
        ∧ ((∃ answer, stage = .ended answer ∧ b.pick now k
              = { b.takeIn k definition answer with tasks := before ++ after })
          ∨ (∀ answer, stage ≠ .ended answer)
            ∧ b.pick now k = b.advance now before after definition stage) := by
  by_cases hk : k < b.tasks.length
  · right
    obtain ⟨before, ⟨definition, stage⟩, after, htasks, rfl⟩ :
        ∃ before task after, b.tasks = before ++ task :: after ∧ before.length = k :=
      ⟨b.tasks.take k, b.tasks[k], b.tasks.drop (k + 1), by simp, by simp; omega⟩
    refine ⟨before, after, definition, stage, rfl, htasks, ?_⟩
    by_cases hended : ∃ answer, stage = .ended answer
    · obtain ⟨answer, rfl⟩ := hended
      exact .inl ⟨answer, rfl, pick_ended htasks⟩
    · have hlive : ∀ answer, stage ≠ .ended answer := fun answer h => hended ⟨answer, h⟩
      exact .inr ⟨hlive, pick_live now hlive htasks⟩
  · left
    refine ⟨Nat.not_lt.1 hk, ?_⟩
    rw [pick, List.getElem?_eq_none (Nat.not_lt.1 hk)]

/-! ## What every schedule keeps -/

/-- Some build that was not taken in yet comes to a row. -/
def Awaits (b : Boot) (tables : Tables) (row : RowName) : Prop :=
  ∃ task ∈ b.tasks, task.stage.Wants tables task.definition row

theorem awaits_iff {b : Boot} {definition : Instance} {stage : BuildStage}
    (h : b.tasks = before ++ ⟨definition, stage⟩ :: after) (tables : Tables) (row : RowName) :
    b.Awaits tables row ↔ stage.Wants tables definition row
      ∨ ∃ task ∈ before ++ after, task.stage.Wants tables task.definition row := by
  rw [Awaits, h]
  constructor
  · rintro ⟨task, htask, hwants⟩
    rcases List.mem_cons.1 (List.perm_middle.mem_iff.1 htask) with rfl | hother
    · exact .inl hwants
    · exact .inr ⟨task, hother, hwants⟩
  · rintro (hwants | ⟨task, hother, hwants⟩)
    · exact ⟨_, List.mem_append_right before List.mem_cons_self, hwants⟩
    · exact ⟨task, List.perm_middle.mem_iff.2 (List.mem_cons_of_mem _ hother), hwants⟩

/-- What is known at any time of a fleet whose builds have begun: which builds were taken in tells
    everything but the lookups, and these can hold nothing but what is stored. -/
structure Sound (f : Fleet) (now : Instant) (instances : List Instance) (b : Boot) : Prop where
  fleet : b.fleet = { f.settleAll (f.verdict now) b.taken with lookups := b.fleet.lookups }
  built : b.built = b.taken.countP fun d => (f.verdict now d).isOk
  lots : (b.taken ++ b.tasks.map (·.definition)).Perm instances
  stages : ∀ task ∈ b.tasks, task.stage.Sound f.storage.tables
    ∧ task.stage.verdict f task.definition now = f.verdict now task.definition
  zones : b.fleet.lookups.zones = f.lookups.zones
  faithful : b.fleet.lookups.Faithful f.storage.tables
  rows : ∀ row, b.fleet.lookups.has row = true ∨ b.Awaits f.storage.tables row
    ↔ f.lookups.has row = true
      ∨ ∃ d ∈ instances, (BuildStage.opening d).Wants f.storage.tables d row

variable {f : Fleet} {instances : List Instance}

theorem Sound.ground (h : Sound f now instances b) : f.SameGround b.fleet := by
  have hkept := f.settleAll_keeps (f.verdict now) b.taken
  refine ⟨?_, ?_, ?_, h.zones⟩
  · rw [h.fleet, hkept]
  · rw [h.fleet, hkept]
  · rw [h.fleet, hkept]

/-- A build that has ended is taken in. -/
theorem Sound.takeIn (h : Sound f now instances b) {definition : Instance} {answer : Except Halt Job}
    (htasks : b.tasks = before ++ ⟨definition, .ended answer⟩ :: after) :
    Sound f now instances
      { b.takeIn before.length definition answer with tasks := before ++ after } := by
  have hmem : (⟨definition, .ended answer⟩ : BuildTask) ∈ b.tasks := by
    rw [htasks]
    exact List.mem_append_right before List.mem_cons_self
  have hverdict : f.verdict now definition = answer := (h.stages _ hmem).2.symm
  have hsettled : b.fleet.settle answer
      = { f.settleAll (f.verdict now) (b.taken ++ [definition]) with lookups := b.fleet.lookups } := by
    rw [Fleet.settleAll_concat, hverdict, ← Fleet.settle_withLookups, ← h.fleet]
  have hlookups : (b.fleet.settle answer).lookups = b.fleet.lookups := by rw [hsettled]
  refine ⟨?_, ?_, ?_, fun task htask => h.stages task ?_, ?_, ?_, fun row => ?_⟩
  · show b.fleet.settle answer = { f.settleAll (f.verdict now) (b.taken ++ [definition]) with
      lookups := (b.fleet.settle answer).lookups }
    rw [hlookups]
    exact hsettled
  · show (if answer.isOk then b.built + 1 else b.built)
      = (b.taken ++ [definition]).countP fun d => (f.verdict now d).isOk
    rw [List.countP_append, List.countP_singleton, hverdict, h.built]
    split
    · rfl
    · rfl
  · have hlots := h.lots
    rw [htasks, List.map_append, List.map_cons] at hlots
    show (b.taken ++ [definition] ++ (before ++ after).map (·.definition)).Perm instances
    rw [List.map_append, List.append_assoc, List.singleton_append]
    exact (List.perm_middle.symm.append_left b.taken).trans hlots
  · rw [htasks]
    exact List.perm_middle.mem_iff.2 (List.mem_cons_of_mem _ htask)
  · exact (congrArg Lookups.zones hlookups).trans h.zones
  · show (b.fleet.settle answer).lookups.Faithful f.storage.tables
    rw [hlookups]
    exact h.faithful
  · rw [← h.rows row]
    show (b.fleet.settle answer).lookups.has row = true ∨ _ ↔ _
    rw [hlookups, awaits_iff htasks]
    -- a build that has ended comes to no more rows
    exact or_congr Iff.rfl (iff_of_eq (false_or _)).symm

/-- What the next step of a build keeps that has not ended. -/
theorem Sound.goes (h : Sound f now instances b) (hup : f.storage.down = []) {definition : Instance}
    {stage : BuildStage} (hmem : ⟨definition, stage⟩ ∈ b.tasks)
    (hlive : ∀ answer, stage ≠ .ended answer) :
    BuildStage.Goes b.fleet definition now stage (stage.step b.fleet definition now).1
      (stage.step b.fleet definition now).2 := by
  have hstorage := h.ground.storage
  refine BuildStage.goes_step ?_ ?_ ?_ hlive
  · rw [hstorage, hup]
  · rw [hstorage]
    exact h.faithful
  · rw [hstorage]
    exact (h.stages _ hmem).1

/-- A build that has not ended makes a step, in which it keeps its verdict. -/
theorem Sound.advance (h : Sound f now instances b) (hup : f.storage.down = [])
    {definition : Instance} {stage : BuildStage} (hlive : ∀ answer, stage ≠ .ended answer)
    (htasks : b.tasks = before ++ ⟨definition, stage⟩ :: after) :
    Sound f now instances (b.advance now before after definition stage)
      ∧ (stage.step b.fleet definition now).1.work < stage.work := by
  have hmem : (⟨definition, stage⟩ : BuildTask) ∈ b.tasks := by
    rw [htasks]
    exact List.mem_append_right before List.mem_cons_self
  have hground := h.ground
  have hstorage := hground.storage
  have hgoes := h.goes hup hmem hlive
  refine ⟨⟨?_, h.built, ?_, fun task htask => ?_, hgoes.zones.trans h.zones, ?_, fun row => ?_⟩,
    hgoes.work⟩
  · exact congrArg (fun g : Fleet => { g with lookups := (stage.step b.fleet definition now).2 })
      h.fleet
  · have hlots := h.lots
    rw [htasks] at hlots
    simpa [Boot.advance] using hlots
  · rcases List.mem_cons.1 (List.perm_middle.mem_iff.1 htask) with rfl | hother
    · constructor
      · have hsound := hgoes.sound
        rw [hstorage] at hsound
        exact hsound
      · -- the step is made on what is remembered by now, but verdicts do not depend on that
        rw [← (h.stages _ hmem).2, ← BuildStage.verdict_congr hground,
          ← BuildStage.verdict_congr hground stage]
        exact hgoes.verdict
    · refine h.stages task ?_
      rw [htasks]
      exact List.perm_middle.mem_iff.2 (List.mem_cons_of_mem _ hother)
  · have hfaithful := hgoes.faithful
    rw [hstorage] at hfaithful
    exact hfaithful
  · rw [← h.rows row]
    have hrow := hgoes.rows row
    rw [hstorage] at hrow
    have hlater : (b.advance now before after definition stage).tasks = before
        ++ ⟨definition, (stage.step b.fleet definition now).1⟩ :: after := rfl
    rw [awaits_iff hlater, awaits_iff htasks, ← or_assoc, ← or_assoc]
    exact or_congr hrow Iff.rfl

/-- How many steps builds take at most until all of them are taken in. -/
def workOf : List BuildTask → Nat
  | [] => 0
  | task :: rest => task.stage.work + workOf rest

theorem workOf_append (front back : List BuildTask) :
    workOf (front ++ back) = workOf front + workOf back := by
  induction front with
  | nil => exact (Nat.zero_add _).symm
  | cons task rest ih =>
    show task.stage.work + workOf (rest ++ back) = task.stage.work + workOf rest + workOf back
    rw [ih, Nat.add_assoc]

/-- A pick keeps what is known, and one of a build that is there is a step towards the end. -/
theorem Sound.pick (h : Sound f now instances b) (hup : f.storage.down = []) (k : Nat) :
    Sound f now instances (b.pick now k)
      ∧ (k < b.tasks.length → workOf (b.pick now k).tasks < workOf b.tasks) := by
  obtain ⟨hle, hpick⟩ | ⟨before, after, definition, stage, rfl, htasks, hpick⟩ := pick_cases now b k
  · rw [hpick]
    exact ⟨h, fun hk => absurd hk (Nat.not_lt.2 hle)⟩
  · obtain ⟨answer, rfl, hpick⟩ | ⟨hlive, hpick⟩ := hpick
    · rw [hpick]
      refine ⟨h.takeIn htasks, fun _ => ?_⟩
      rw [htasks, workOf_append, workOf_append, workOf, BuildStage.work]
      omega
    · obtain ⟨hsound, hless⟩ := h.advance hup hlive htasks
      rw [hpick]
      refine ⟨hsound, fun _ => ?_⟩
      rw [Boot.advance, htasks, workOf_append, workOf_append, workOf, workOf]
      dsimp only
      omega

theorem Sound.run (h : Sound f now instances b) (hup : f.storage.down = []) (schedule : List Nat) :
    Sound f now instances (b.run now schedule) := by
  induction schedule generalizing b with
  | nil => exact h
  | cons k rest ih => exact ih (h.pick hup k).1

/-- Every pick of a schedule is of a build that was not taken in yet. -/
def Busy (now : Instant) (b : Boot) : List Nat → Prop
  | [] => True
  | k :: rest => k < b.tasks.length ∧ (b.pick now k).Busy now rest

/-- A busy schedule comes to an end. -/
theorem Sound.length_le (h : Sound f now instances b) (hup : f.storage.down = []) {schedule : List Nat}
    (hbusy : b.Busy now schedule) : schedule.length ≤ workOf b.tasks := by
  induction schedule generalizing b with
  | nil => exact Nat.zero_le _
  | cons k rest ih =>
    obtain ⟨hsound, hless⟩ := h.pick hup k
    have hrest := ih hsound hbusy.2
    have hstep := hless hbusy.1
    rw [List.length_cons]
    omega

/-- From wherever a schedule has come to, the builds can all be ended. -/
theorem Sound.exists_complete (h : Sound f now instances b) (hup : f.storage.down = []) :
    ∃ schedule, b.Busy now schedule ∧ (b.run now schedule).tasks = [] := by
  induction hwork : workOf b.tasks using Nat.strongRecOn generalizing b with
  | ind work ih =>
    by_cases hnone : b.tasks = []
    · exact ⟨[], trivial, hnone⟩
    · -- as long as there are builds, there is a first one to be picked
      have hpos : 0 < b.tasks.length := List.length_pos_iff.2 hnone
      obtain ⟨hsound, hless⟩ := h.pick hup 0
      obtain ⟨schedule, hbusy, hcomplete⟩ := ih _ (hwork ▸ hless hpos) hsound rfl
      exact ⟨0 :: schedule, ⟨hpos, hbusy⟩, hcomplete⟩

/-! ## Complete runs -/

theorem Sound.taken_perm (h : Sound f now instances b) (hnone : b.tasks = []) :
    b.taken.Perm instances := by
  have hlots := h.lots
  rw [hnone, List.map_nil, List.append_nil] at hlots
  exact hlots

/-- What is remembered in the end. -/
theorem Sound.has_iff (h : Sound f now instances b) (hnone : b.tasks = []) (row : RowName) :
    b.fleet.lookups.has row = true ↔ f.lookups.has row = true
      ∨ ∃ d ∈ instances, (BuildStage.opening d).Wants f.storage.tables d row := by
  rw [← h.rows row, Awaits, hnone]
  simp

/-- When all builds are taken in, there is one fleet that they can have come to. -/
theorem Sound.unique {c : Boot} (hb : Sound f now instances b) (hc : Sound f now instances c)
    (hvacant : f.Vacant instances) (hbnone : b.tasks = []) (hcnone : c.tasks = []) :
    b.fleet = c.fleet ∧ b.built = c.built := by
  have hbtaken := hb.taken_perm hbnone
  have hperm := hbtaken.trans (hc.taken_perm hcnone).symm
  have hsettled := Fleet.settleAll_perm (f.names_verdict now) (hvacant.perm hbtaken.symm) hperm
  have hlookups : b.fleet.lookups = c.fleet.lookups := by
    refine hb.faithful.ext hc.faithful (hb.zones.trans hc.zones.symm) fun row => ?_
    rw [hb.has_iff hbnone, hc.has_iff hcnone]
  refine ⟨?_, ?_⟩
  · rw [hb.fleet, hc.fleet, hsettled, hlookups]
  · rw [hb.built, hc.built, hperm.countP_eq]

/-! ## Builds in turn -/

theorem run_append (b : Boot) (first second : List Nat) :
    b.run now (first ++ second) = (b.run now first).run now second := by
  rw [run, List.foldl_append]
  rfl

/-- A build that reaches a stage on its own reaches it when it is picked again and again. -/
theorem exists_run_of_reaches {definition : Instance} {a e : BuildStage × Lookups}
    (h : BuildStage.Reaches f definition now a e) (hfleet : b.fleet = { f with lookups := a.2 })
    (htasks : b.tasks = before ++ ⟨definition, a.1⟩ :: after) :
    ∃ schedule, b.run now schedule = { b with
      fleet := { f with lookups := e.2 }, tasks := before ++ ⟨definition, e.1⟩ :: after } := by
  induction h using Relation.ReflTransGen.head_induction_on generalizing b with
  | refl =>
    refine ⟨[], ?_⟩
    rw [← hfleet, ← htasks]
    rfl
  | head hfirst hrest ih =>
    obtain ⟨hlive, rfl⟩ := hfirst
    have hpick := pick_live now hlive htasks
    obtain ⟨schedule, hrun⟩ := ih (b := b.pick now before.length)
      (by rw [hpick, advance, hfleet]) (by rw [hpick, advance, hfleet])
    refine ⟨before.length :: schedule, ?_⟩
    show (b.pick now before.length).run now schedule = _
    rw [hrun, hpick]
    rfl

/-- A build as a whole, from its first step until it is taken in. -/
theorem exists_run_build (now : Instant) {definition : Instance}
    (htasks : b.tasks = before ++ ⟨definition, .opening definition⟩ :: after) :
    ∃ schedule, b.run now schedule =
      { fleet := b.fleet.afterBuild definition now, tasks := before ++ after
        taken := b.taken ++ [definition]
        built := if (b.fleet.build definition now).1.isOk then b.built + 1 else b.built } := by
  obtain ⟨schedule, hrun⟩ :=
    exists_run_of_reaches (b := b) (f := b.fleet) BuildStage.reaches_build rfl htasks
  refine ⟨schedule ++ [before.length], ?_⟩
  rw [run_append, hrun]
  show Boot.pick now _ before.length = _
  rw [pick_ended rfl, takeIn, Fleet.afterBuild_eq]

/-- The builds as wholes, in any order. -/
theorem exists_run_order (now : Instant) {definitions order : List Instance}
    (htasks : b.tasks = definitions.map fun d => ⟨d, .opening d⟩) (horder : order.Perm definitions) :
    ∃ schedule, b.run now schedule =
      { fleet := (b.fleet.installAll now order).2, tasks := []
        taken := b.taken ++ order
        built := b.built + (b.fleet.installAll now order).1 } := by
  induction order generalizing b definitions with
  | nil =>
    obtain rfl := List.nil_perm.1 horder
    refine ⟨[], ?_⟩
    rw [List.append_nil, ← show b.tasks = [] from htasks]
    rfl
  | cons d rest ih =>
    -- the build of `d` lies between those of `front` and of `back`, which go on as they are
    obtain ⟨front, back, rfl⟩ := List.append_of_mem (horder.mem_iff.1 List.mem_cons_self)
    rw [List.map_append, List.map_cons] at htasks
    obtain ⟨first, hfirst⟩ := exists_run_build now htasks
    have hrest : rest.Perm (front ++ back) := (horder.trans List.perm_middle).cons_inv
    obtain ⟨later, hlater⟩ := ih (b := b.run now first) (by rw [hfirst, List.map_append]) hrest
    refine ⟨first ++ later, ?_⟩
    rw [run_append, hlater, hfirst]
    dsimp only
    rw [List.append_assoc, List.singleton_append, Fleet.installAll_cons,
      Fleet.built_installAll_cons]
    split
    · rw [Nat.add_right_comm, Nat.add_assoc]
    · rfl

end Boot

end ScanFleet
