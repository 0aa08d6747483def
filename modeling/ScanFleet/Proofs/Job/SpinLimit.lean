import Mathlib.Data.List.SplitBy
import ScanFleet.Proofs.Calendar.LocalTime
import ScanFleet.Proofs.Job.Quests

set_option autoImplicit false

/-! # The spin limit of a day

A quest job counts what an account is handed for as long as the check-ins stay on one local date. A
check-in on any other date, be it an earlier one, forgets the counts of all accounts. So the limit holds
within each stretch of check-ins on one date, and a date whose stretches are parted by another date is
granted the limit again in each of them (`Job.questsOn_eq_granted`). Check-ins in the order of time come in
one stretch for each date, and are held to the limit. -/

namespace ScanFleet

/-- A check-in with an account at an instant. -/
structure CheckIn where
  account : Option String
  time : Instant

namespace CheckIn

/-- The act of checking in. -/
def act (c : CheckIn) : JobAct := .task c.account c.time

/-- The local date of a check-in in a zone `offset` seconds east. -/
def date? (c : CheckIn) (offset : Int) : Option Date := c.time.localDate? offset

/-- Whether an account checks in on a local date. -/
def isBy (c : CheckIn) (offset : Int) (account : String) (date : Date) : Bool :=
  decide (c.account = some account ∧ c.date? offset = some date)

end CheckIn

/-- The check-in of an act. -/
def JobAct.checkIn? : JobAct → Option CheckIn
  | .task account time => some ⟨account, time⟩
  | _ => none

/-- How many quests an account is handed by check-ins on a local date. -/
def questsOn (offset : Int) (account : String) (date : Date) (steps : List JobStep) : Nat :=
  steps.countP fun s => s.work?.isSome && s.act.checkIn?.any (·.isBy offset account date)

/-- Two check-ins are on one local date. -/
def SameDate (offset : Int) (a b : CheckIn) : Prop := a.date? offset = b.date? offset

instance (offset : Int) : DecidableRel (SameDate offset) := fun a b =>
  inferInstanceAs (Decidable (a.date? offset = b.date? offset))

instance (offset : Int) : Trans (SameDate offset) (SameDate offset) (SameDate offset) :=
  ⟨fun hab hbc => Eq.trans hab hbc⟩

/-- The check-ins up to the first one beyond the calendar, which breaks a quest job. -/
def reached (offset : Int) (checkIns : List CheckIn) : List CheckIn :=
  checkIns.takeWhile fun c => (c.date? offset).isSome

/-- The check-ins that reach a quest job, in stretches on one local date. -/
def stretches (offset : Int) (checkIns : List CheckIn) : List (List CheckIn) :=
  (reached offset checkIns).splitBy fun a b => decide (SameDate offset a b)

/-- What an account is granted on a local date when every stretch of check-ins is held to the limit. -/
def granted (offset : Int) (limit : Nat) (account : String) (date : Date) :
    List (List CheckIn) → Nat
  | [] => 0
  | part :: rest =>
    min limit (part.countP (·.isBy offset account date)) + granted offset limit account date rest

theorem questsOn_append (offset : Int) (account : String) (date : Date)
    (steps others : List JobStep) : questsOn offset account date (steps ++ others)
      = questsOn offset account date steps + questsOn offset account date others :=
  List.countP_append

theorem CheckIn.isBy_of_date {c : CheckIn} {offset : Int} {date : Date}
    (h : c.date? offset = some date) (account : String) :
    c.isBy offset account date = decide (c.account = some account) := by
  rw [isBy, h]
  simp

theorem questsOn_of_no_work {s : JobStep} (h : s.work? = none) (offset : Int) (account : String)
    (date : Date) : questsOn offset account date [s] = 0 := by
  rw [questsOn, List.countP_singleton, h]
  rfl

theorem questsOn_of_work {s : JobStep} {task : Task} (h : s.work? = some task) {c : CheckIn}
    (hact : s.act = c.act) (offset : Int) (account : String) (date : Date) :
    questsOn offset account date [s] = if c.isBy offset account date then 1 else 0 := by
  rw [questsOn, List.countP_singleton, h, hact]
  rfl

namespace Job

/-- What counts against the limits when somebody checks in on a date. -/
def heldOn (j : Job) (steps : List JobStep) (date : Date) : List JobStep :=
  if j.questDate? = some date then handed steps else []

/-- A quest job at work that has held all accounts to the limit. -/
structure Limits (j : Job) (plan : JobPlan) (limit : Nat) (steps : List JobStep) : Prop where
  quested : j.Quested plan steps
  works : j.stopped = false
  within : ∀ account, stepsOf (handed steps) account ≤ limit

variable {j : Job} {plan : JobPlan} {limit : UInt32} {steps : List JobStep} {s : JobStep}
  {c : CheckIn} {date : Date}

theorem Limits.within_heldOn (h : j.Limits plan limit.toNat steps) (date : Date)
    (account : String) : stepsOf (j.heldOn steps date) account ≤ limit.toNat := by
  rw [heldOn]
  split
  · exact h.within account
  · exact Nat.zero_le _

/-- A check-in is handed a quest as long as the account has not reached the limit. -/
theorem Limits.checkIn (h : s.job.Limits plan limit.toNat steps) (hroute : plan.area.route ≠ [])
    (hlimit : plan.definition.settings.spinLimit = some limit) (hact : s.act = c.act)
    (hdate : c.date? (plan.offset.getD 0) = some date) :
    s.after.Limits plan limit.toNat (steps ++ [s]) ∧ s.after.questDate? = some date
      ∧ ∀ account, stepsOf (handed (steps ++ [s])) account
          = min limit.toNat (stepsOf (s.job.heldOn steps date) account
            + if c.isBy (plan.offset.getD 0) account date then 1 else 0)
        ∧ questsOn (plan.offset.getD 0) account date [s]
            + stepsOf (s.job.heldOn steps date) account
          = stepsOf (handed (steps ++ [s])) account := by
  obtain ⟨state, hsweeps, -⟩ := h.quested
  have hcalendar : InCalendar plan [s.act] := by
    intro account time hmem
    rw [List.mem_singleton, hact] at hmem
    cases hmem
    exact Option.isSome_of_eq_some hdate
  have htoday : c.time.localDate? state.offset = some date := by
    rw [hsweeps.offset]
    exact hdate
  obtain ⟨hrestarts, hcases⟩ := hsweeps.checkIn hroute h.works hact htoday
  have hheld : handedBefore steps s = s.job.heldOn steps date := by
    rw [heldOn, handedBefore, hrestarts, questDate?, hsweeps.duty]
    by_cases hsame : date = state.today
    · simp [hsame]
    · simp [hsame, Ne.symm hsame]
  rw [hheld] at hcases
  -- the counts stay within the limit, refused or not, so the state after follows from them
  suffices hkey : s.after.stopped = false ∧ s.after.questDate? = some date ∧ ∀ account,
      stepsOf (handed (steps ++ [s])) account
          = min limit.toNat (stepsOf (s.job.heldOn steps date) account
            + if c.isBy (plan.offset.getD 0) account date then 1 else 0)
        ∧ questsOn (plan.offset.getD 0) account date [s]
            + stepsOf (s.job.heldOn steps date) account
          = stepsOf (handed (steps ++ [s])) account by
    refine ⟨⟨h.quested.step hroute hcalendar, hkey.1, fun account => ?_⟩, hkey.2⟩
    rw [(hkey.2.2 account).1]
    exact Nat.min_le_left _ _
  obtain ⟨hspent, hrefuses⟩ | ⟨hmore, hserves⟩ := hcases
  · obtain ⟨after, hafter, htoday, -⟩ := hrefuses.after
    have hwork := (JobStep.silent_of_idle hrefuses.handout).work
    refine ⟨hrefuses.works, ?_, fun account => ?_⟩
    · rw [questDate?, hafter.duty, ← htoday]
    · obtain ⟨name, hname, hle⟩ := (Instance.spent_iff hlimit _ _).1 hspent
      have hwithin := h.within_heldOn date account
      rw [handed_of_no_work hwork, hheld, questsOn_of_no_work hwork, CheckIn.isBy_of_date hdate,
        hname]
      simp only [decide_eq_true_eq]
      by_cases hown : name = account
      · subst hown
        rw [if_pos rfl]
        omega
      · rw [if_neg fun hsome => hown (Option.some.inj hsome)]
        omega
  · obtain ⟨after, hafter, htoday, -⟩ := hserves.after
    obtain ⟨task, hwork⟩ := Option.isSome_iff_exists.1 hserves.work
    refine ⟨hserves.works, ?_, fun account => ?_⟩
    · rw [questDate?, hafter.duty, ← htoday]
    · have hwithin := h.within_heldOn date account
      have haccount : s.account? = c.account := by
        rw [JobStep.account?, hact]
        rfl
      rw [handed_of_work hwork, hheld, stepsOf_append_singleton, questsOn_of_work hwork hact,
        CheckIn.isBy_of_date hdate, haccount]
      simp only [decide_eq_true_eq]
      by_cases hown : c.account = some account
      · have hlt : ¬ limit.toNat ≤ stepsOf (s.job.heldOn steps date) account := fun hle =>
          hmore ((Instance.spent_iff hlimit _ _).2 ⟨account, hown, hle⟩)
        rw [if_pos hown]
        omega
      · rw [if_neg hown]
        omega

/-! ## Stretches -/

/-- In a stretch of check-ins on one date every account is handed quests up to the limit. -/
theorem Limits.stretch (h : j.Limits plan limit.toNat steps) (hroute : plan.area.route ≠ [])
    (hlimit : plan.definition.settings.spinLimit = some limit) {checkIns : List CheckIn}
    (hdate : ∀ c ∈ checkIns, c.date? (plan.offset.getD 0) = some date) :
    (j.run (checkIns.map CheckIn.act)).Limits plan limit.toNat
        (steps ++ j.steps (checkIns.map CheckIn.act))
      ∧ (checkIns ≠ [] → (j.run (checkIns.map CheckIn.act)).questDate? = some date)
      ∧ ∀ account, questsOn (plan.offset.getD 0) account date (j.steps (checkIns.map CheckIn.act))
          + stepsOf (j.heldOn steps date) account
        = min limit.toNat (stepsOf (j.heldOn steps date) account
          + checkIns.countP (·.isBy (plan.offset.getD 0) account date)) := by
  induction checkIns generalizing j steps with
  | nil =>
    rw [List.map_nil, Job.steps, List.append_nil]
    refine ⟨h, fun hne => absurd rfl hne, fun account => ?_⟩
    have hwithin := h.within_heldOn date account
    simp only [questsOn, List.countP_nil]
    omega
  | cons c rest ih =>
    obtain ⟨hlimits, hdated, hcounts⟩ := Limits.checkIn (s := ⟨j, c.act⟩) h hroute hlimit rfl
      (hdate c List.mem_cons_self)
    obtain ⟨hlimits, hlater, hrest⟩ :=
      ih hlimits fun other hother => hdate other (List.mem_cons_of_mem c hother)
    rw [List.append_assoc] at hlimits
    refine ⟨hlimits, fun _ => ?_, fun account => ?_⟩
    · cases rest with
      | nil => exact hdated
      | cons second others => exact hlater (List.cons_ne_nil second others)
    · obtain ⟨hnow, hserved⟩ := hcounts account
      have hrest := hrest account
      rw [heldOn, hdated, if_pos rfl, hnow] at hrest
      rw [hnow] at hserved
      have hsplit : questsOn (plan.offset.getD 0) account date (j.steps ((c :: rest).map CheckIn.act))
          = questsOn (plan.offset.getD 0) account date [⟨j, c.act⟩]
            + questsOn (plan.offset.getD 0) account date
              ((⟨j, c.act⟩ : JobStep).after.steps (rest.map CheckIn.act)) :=
        questsOn_append _ _ _ [⟨j, c.act⟩] _
      rw [hsplit, List.countP_cons]
      show _ + stepsOf ((⟨j, c.act⟩ : JobStep).job.heldOn steps date) account = min limit.toNat
        (stepsOf ((⟨j, c.act⟩ : JobStep).job.heldOn steps date) account + _)
      omega

/-- No more quests are handed to an account on a date than it checks in then. -/
theorem questsOn_le (j : Job) (checkIns : List CheckIn) (offset : Int) (account : String)
    (date : Date) : questsOn offset account date (j.steps (checkIns.map CheckIn.act))
      ≤ checkIns.countP (·.isBy offset account date) := by
  induction checkIns generalizing j with
  | nil => exact Nat.le_refl 0
  | cons c rest ih =>
    have hrest := ih (j.act c.act).2
    have hfirst : questsOn offset account date [⟨j, c.act⟩]
        ≤ if c.isBy offset account date then 1 else 0 := by
      cases hwork : (⟨j, c.act⟩ : JobStep).work? with
      | none =>
        rw [questsOn_of_no_work hwork]
        exact Nat.zero_le _
      | some task => exact Nat.le_of_eq (questsOn_of_work hwork rfl offset account date)
    have hsplit := questsOn_append offset account date [⟨j, c.act⟩]
      ((j.act c.act).2.steps (rest.map CheckIn.act))
    rw [List.map_cons, Job.steps, ← List.singleton_append, hsplit, List.countP_cons]
    omega

theorem run_append (j : Job) (acts others : List JobAct) :
    j.run (acts ++ others) = (j.run acts).run others := List.foldl_append

theorem steps_append (j : Job) (acts others : List JobAct) :
    j.steps (acts ++ others) = j.steps acts ++ (j.run acts).steps others := by
  induction acts generalizing j with
  | nil => rfl
  | cons a rest ih => exact congrArg (⟨j, a⟩ :: ·) (ih (j.act a).2)

/-- Stretches on one date each, no two next to each other on the same. -/
structure Parted (offset : Int) (parts : List (List CheckIn)) : Prop where
  dated : ∀ part ∈ parts, part ≠ [] ∧ ∃ date, ∀ c ∈ part, c.date? offset = some date
  differ : parts.IsChain fun a b => ∀ c ∈ a, ∀ d ∈ b, c.date? offset ≠ d.date? offset

theorem Parted.tail {offset : Int} {first : List CheckIn} {rest : List (List CheckIn)}
    (h : Parted offset (first :: rest)) : Parted offset rest :=
  ⟨fun part hpart => h.dated part (List.mem_cons_of_mem first hpart), h.differ.tail⟩

/-- Stretches on different dates are held to the limit each on its own. -/
theorem Limits.parted (h : j.Limits plan limit.toNat steps) (hroute : plan.area.route ≠ [])
    (hlimit : plan.definition.settings.spinLimit = some limit) {parts : List (List CheckIn)}
    (hparted : Parted (plan.offset.getD 0) parts)
    (hfresh : ∀ part ∈ parts.head?, ∀ c ∈ part, ∀ date,
      c.date? (plan.offset.getD 0) = some date → j.heldOn steps date = [])
    (account : String) (date : Date) :
    (∃ others, (j.run (parts.flatten.map CheckIn.act)).Limits plan limit.toNat others)
      ∧ questsOn (plan.offset.getD 0) account date (j.steps (parts.flatten.map CheckIn.act))
        = granted (plan.offset.getD 0) limit.toNat account date parts := by
  induction parts generalizing j steps with
  | nil => exact ⟨⟨steps, h⟩, rfl⟩
  | cons first rest ih =>
    obtain ⟨hne, today, htoday⟩ := hparted.dated first List.mem_cons_self
    obtain ⟨c, hc⟩ := List.exists_mem_of_ne_nil first hne
    obtain ⟨hlimits, hdated, hcounts⟩ := h.stretch hroute hlimit htoday
    have hheld : j.heldOn steps today = [] := hfresh first rfl c hc today (htoday c hc)
    have hfirst : questsOn (plan.offset.getD 0) account date (j.steps (first.map CheckIn.act))
        = min limit.toNat (first.countP (·.isBy (plan.offset.getD 0) account date)) := by
      by_cases hsame : today = date
      · subst hsame
        have hcount := hcounts account
        rw [hheld] at hcount
        simpa [stepsOf] using hcount
      · have hnone : first.countP (·.isBy (plan.offset.getD 0) account date) = 0 := by
          refine List.countP_eq_zero.2 fun c hc => ?_
          rw [CheckIn.isBy, htoday c hc]
          simp [hsame]
        have hle := j.questsOn_le first (plan.offset.getD 0) account date
        omega
    obtain ⟨hend, hrest⟩ := ih hlimits hparted.tail fun part hpart d hd later hlater => by
      have hother : today ≠ later := by
        rintro rfl
        exact hparted.differ.rel_head? hpart c hc d hd ((htoday c hc).trans hlater.symm)
      rw [heldOn, hdated hne, if_neg fun hsome => hother (Option.some.inj hsome)]
    rw [List.flatten_cons, List.map_append, run_append, steps_append, questsOn_append, hfirst, hrest]
    exact ⟨hend, rfl⟩

theorem flatten_stretches (offset : Int) (checkIns : List CheckIn) :
    (stretches offset checkIns).flatten = reached offset checkIns :=
  List.flatten_splitBy _ _

/-- The check-ins that reach a job do come in such stretches. -/
theorem parted_stretches (offset : Int) (checkIns : List CheckIn) :
    Parted offset (stretches offset checkIns) := by
  have hdated : ∀ part ∈ stretches offset checkIns, part ≠ [] ∧ ∃ date, ∀ c ∈ part,
      c.date? offset = some date := by
    intro part hpart
    have hne := List.ne_nil_of_mem_splitBy hpart
    obtain ⟨first, rest, rfl⟩ := List.exists_cons_of_ne_nil hne
    have hchain : (first :: rest).IsChain (SameDate offset) :=
      (List.isChain_of_mem_splitBy hpart).imp fun _ _ h => of_decide_eq_true h
    have hsame := hchain.pairwise
    have hfirst : first ∈ reached offset checkIns := by
      rw [← flatten_stretches]
      exact List.mem_flatten_of_mem hpart List.mem_cons_self
    obtain ⟨date, hdate⟩ := Option.isSome_iff_exists.1
      (List.all_eq_true.1 List.all_takeWhile first hfirst)
    refine ⟨hne, date, fun c hc => ?_⟩
    rcases List.mem_cons.1 hc with rfl | hc
    · exact hdate
    · exact Eq.trans (Eq.symm ((List.pairwise_cons.1 hsame).1 c hc)) hdate
  refine ⟨hdated, (List.isChain_getLast_head_splitBy _ _).imp_of_mem_imp fun a b ha hb hends => ?_⟩
  obtain ⟨hane, hbne, hends⟩ := hends
  obtain ⟨-, before, hbefore⟩ := hdated a ha
  obtain ⟨-, after, hafter⟩ := hdated b hb
  rw [decide_eq_false_iff_not, SameDate, hbefore _ (List.getLast_mem hane),
    hafter _ (List.head_mem hbne)] at hends
  intro c hc d hd
  rw [hbefore c hc, hafter d hd]
  exact hends

/-- A broken job hands out no quests. -/
theorem questsOn_of_broken (h : j.broken = true) (checkIns : List CheckIn) (offset : Int)
    (account : String) (date : Date) :
    questsOn offset account date (j.steps (checkIns.map CheckIn.act)) = 0 := by
  induction checkIns with
  | nil => rfl
  | cons c rest ih =>
    have hidle : j.act c.act = (some { task := .idle }, j) := by
      rw [CheckIn.act, Job.act, handOut, if_pos (.inl h)]
    have hwork : (⟨j, c.act⟩ : JobStep).work? = none := by
      rw [JobStep.work?, JobStep.handout?, hidle]
      rfl
    rw [List.map_cons, Job.steps, hidle, ← List.singleton_append, questsOn_append, ih,
      questsOn_of_no_work hwork]

/-- From the first check-in beyond the calendar on, a quest job hands out nothing. -/
theorem Limits.questsOn_beyond (h : j.Limits plan limit.toNat steps) {rest : List CheckIn}
    (hrest : ∀ c ∈ rest.head?, c.date? (plan.offset.getD 0) = none) (offset : Int)
    (account : String) (date : Date) :
    questsOn offset account date (j.steps (rest.map CheckIn.act)) = 0 := by
  cases rest with
  | nil => rfl
  | cons c others =>
    obtain ⟨state, hsweeps, -⟩ := h.quested
    have hdate : c.time.localDate? state.offset = none := by
      rw [hsweeps.offset]
      exact hrest c rfl
    have hbreaks : j.act c.act = (none, { j with broken := true }) :=
      hsweeps.handOut_beyond h.works c.account hdate
    have hwork : (⟨j, c.act⟩ : JobStep).work? = none := by
      rw [JobStep.work?, JobStep.handout?, hbreaks]
      rfl
    rw [List.map_cons, Job.steps, hbreaks, ← List.singleton_append, questsOn_append,
      questsOn_of_no_work hwork, questsOn_of_broken rfl]

theorem reached_append (offset : Int) (checkIns : List CheckIn) :
    ∃ rest, checkIns = reached offset checkIns ++ rest ∧ ∀ c ∈ rest.head?, c.date? offset = none := by
  refine ⟨checkIns.dropWhile fun c => (c.date? offset).isSome,
    List.takeWhile_append_dropWhile.symm, fun c hc => ?_⟩
  have hstop := List.head?_dropWhile_not (fun c => (c.date? offset).isSome) checkIns
  rw [Option.mem_def.1 hc] at hstop
  simpa using hstop

theorem limits_of_build {clock : Instant} (h : JobBuilder.autoQuest.build plan clock = .ok j)
    (limit : Nat) : j.Limits plan limit [] where
  quested := quested_of_build h
  works := by
    obtain ⟨duty, rfl⟩ := JobBuilder.exists_duty h
    rfl
  within _ := Nat.zero_le limit

/-- What a quest job hands to an account on a local date: in every stretch of check-ins on that date as
    many quests as the account checks in, up to the limit. -/
theorem questsOn_eq_granted {clock : Instant}
    (hbuild : JobBuilder.autoQuest.build plan clock = .ok j)
    (hlimit : plan.definition.settings.spinLimit = some limit) (checkIns : List CheckIn)
    (account : String) (date : Date) :
    questsOn (plan.offset.getD 0) account date (j.steps (checkIns.map CheckIn.act))
      = granted (plan.offset.getD 0) limit.toNat account date
        (stretches (plan.offset.getD 0) checkIns) := by
  have hroute := JobBuilder.route_ne_nil hbuild
  obtain ⟨⟨others, hlimits⟩, hserved⟩ := (limits_of_build hbuild limit.toNat).parted hroute hlimit
    (parted_stretches (plan.offset.getD 0) checkIns)
    (fun _ _ _ _ _ _ => by rw [heldOn]; exact ite_self _) account date
  rw [flatten_stretches] at hlimits hserved
  rw [← hserved]
  obtain ⟨rest, hrest, hbeyond⟩ := reached_append (plan.offset.getD 0) checkIns
  conv_lhs => rw [hrest, List.map_append, steps_append, questsOn_append]
  rw [hlimits.questsOn_beyond hbeyond, Nat.add_zero]

/-! ## Check-ins in the order of time -/

theorem granted_eq_zero {offset : Int} {account : String} {date : Date}
    {parts : List (List CheckIn)} (h : ∀ c ∈ parts.flatten, c.isBy offset account date = false)
    (limit : Nat) : granted offset limit account date parts = 0 := by
  induction parts with
  | nil => rfl
  | cons part rest ih =>
    have hnone : part.countP (·.isBy offset account date) = 0 :=
      List.countP_eq_zero.2 fun c hc => by simp [h c (List.mem_append_left rest.flatten hc)]
    rw [granted, hnone, Nat.min_zero, ih fun c hc => h c (List.mem_append_right part hc)]

/-- Later check-ins are on no earlier dates. -/
theorem day_le_of_not_before {a b : CheckIn} {offset : Int} {x y : Date}
    (h : b.time.before a.time = false) (hx : a.date? offset = some x)
    (hy : b.date? offset = some y) : x.day ≤ y.day := by
  have hday {c : CheckIn} {z : Date} (hz : c.date? offset = some z) :
      z.day = (c.time.later offset).zoneDay 0 := Date.day_of_ofDay?_eq_some hz
  have hle := Instant.seconds_later_le h offset
  rw [hday hx, hday hy]
  exact Int.ediv_le_ediv (by decide) (by omega)

/-- In the order of time a date that is left does not come back. -/
theorem Parted.day_lt {offset : Int} {first : List CheckIn} {rest : List (List CheckIn)}
    (h : Parted offset (first :: rest)) (hforward : (first :: rest).flatten.Pairwise
      fun a b => b.time.before a.time = false) {c d : CheckIn} (hc : c ∈ first)
    (hd : d ∈ rest.flatten) {x y : Date} (hx : c.date? offset = some x)
    (hy : d.date? offset = some y) : x.day < y.day := by
  cases rest with
  | nil => cases hd
  | cons second others =>
    rw [List.flatten_cons, List.pairwise_append] at hforward
    obtain ⟨-, hlater, hforward⟩ := hforward
    have hnext {e : CheckIn} (he : e ∈ second) {z : Date} (hz : e.date? offset = some z) :
        x.day < z.day := by
      have hle := day_le_of_not_before
        (hforward c hc e (List.mem_flatten_of_mem List.mem_cons_self he)) hx hz
      have hne : x.day ≠ z.day := fun hsame =>
        h.differ.rel_head? rfl c hc e he (by rw [hx, hz, Date.ext_day hsame])
      omega
    rcases List.mem_append.1 hd with hsecond | hothers
    · exact hnext hsecond hy
    · obtain ⟨hne, z, hz⟩ := h.tail.dated second List.mem_cons_self
      obtain ⟨e, he⟩ := List.exists_mem_of_ne_nil second hne
      have hlt := hnext he (hz e he)
      rw [List.flatten_cons, List.pairwise_append] at hlater
      have hle := day_le_of_not_before (hlater.2.2 e he d hothers) (hz e he) hy
      omega

theorem granted_le_of_forward {offset : Int} {parts : List (List CheckIn)}
    (hparted : Parted offset parts)
    (hforward : parts.flatten.Pairwise fun a b => b.time.before a.time = false) (limit : Nat)
    (account : String) (date : Date) : granted offset limit account date parts ≤ limit := by
  induction parts with
  | nil => exact Nat.zero_le limit
  | cons first rest ih =>
    rw [granted]
    by_cases hnone : first.countP (·.isBy offset account date) = 0
    · have hrest := ih hparted.tail (List.pairwise_append.1 hforward).2.1
      omega
    · obtain ⟨c, hc, hby⟩ := List.countP_pos_iff.1 (Nat.pos_of_ne_zero hnone)
      have hdate : c.date? offset = some date := (of_decide_eq_true hby).2
      have hrest : granted offset limit account date rest = 0 := by
        refine granted_eq_zero (fun d hd => ?_) limit
        refine decide_eq_false fun hother => ?_
        exact absurd (hparted.day_lt hforward hc hd hdate hother.2) (Int.lt_irrefl date.day)
      omega

/-- What a quest job with a spin limit hands out on a day. In every stretch of check-ins on one local
    date an account is handed as many quests as it checks in, up to the limit. So the limit holds for the
    whole day when check-ins come in the order of time, but not when another date parts the day. -/
theorem questsOn_day {clock : Instant} (hbuild : JobBuilder.autoQuest.build plan clock = .ok j)
    (hlimit : plan.definition.settings.spinLimit = some limit) (checkIns : List CheckIn) :
    (∀ account date, questsOn (plan.offset.getD 0) account date (j.steps (checkIns.map CheckIn.act))
        = granted (plan.offset.getD 0) limit.toNat account date
          (stretches (plan.offset.getD 0) checkIns))
      ∧ (checkIns.Pairwise (fun a b => b.time.before a.time = false) → ∀ account date,
        questsOn (plan.offset.getD 0) account date (j.steps (checkIns.map CheckIn.act))
          ≤ limit.toNat) := by
  have hexact := questsOn_eq_granted hbuild hlimit checkIns
  refine ⟨hexact, fun hforward account date => ?_⟩
  rw [hexact]
  refine granted_le_of_forward (parted_stretches _ checkIns) ?_ limit.toNat account date
  rw [flatten_stretches]
  exact hforward.sublist (List.takeWhile_sublist _)

/-- An account with a limit of one quest that checks in on the first day, after midnight, and on the
    first day again. -/
theorem questsOn_day_parted :
    let plan : JobPlan :=
      { definition := { name := "stops", kind := .autoQuest, settings := { spinLimit := some 1 } }
        area := .polygons [[⟨0, 0⟩, ⟨0, 2⟩, ⟨2, 2⟩]] }
    let firstDay : Date := ⟨0, by decide, by decide⟩
    let j := plan.job (.quests { offset := 0, today := firstDay })
    let before : CheckIn := ⟨some "a", .ofSeconds 86300⟩
    let after : CheckIn := ⟨some "a", .ofSeconds 86500⟩
    let late : CheckIn := ⟨some "a", .ofSeconds 86350⟩
    JobBuilder.autoQuest.build plan (.ofSeconds 0) = .ok j
      ∧ questsOn 0 "a" firstDay (j.steps ([before, after, late].map CheckIn.act))
        = granted 0 1 "a" firstDay (stretches 0 [before, after, late])
      ∧ questsOn 0 "a" firstDay (j.steps ([before, late, after].map CheckIn.act)) ≤ 1 := by
  intro plan firstDay j before after late
  have hbuild : JobBuilder.autoQuest.build plan (.ofSeconds 0) = .ok j := rfl
  have hlimit : plan.definition.settings.spinLimit = some 1 := rfl
  have hforward : [before, late, after].Pairwise fun a b => b.time.before a.time = false := by
    decide
  exact ⟨hbuild, (questsOn_day hbuild hlimit [before, after, late]).1 "a" firstDay,
    (questsOn_day hbuild hlimit [before, late, after]).2 hforward "a" firstDay⟩

/-- The limit of one quest does not hold on the first day for an account that checks in late. -/
theorem reopened_by_lateCheckIn :
    let plan : JobPlan :=
      { definition := { name := "stops", kind := .autoQuest, settings := { spinLimit := some 1 } }
        area := .polygons [[⟨0, 0⟩, ⟨0, 2⟩, ⟨2, 2⟩]] }
    let firstDay : Date := ⟨0, by decide, by decide⟩
    let j := plan.job (.quests { offset := 0, today := firstDay })
    let before : CheckIn := ⟨some "a", .ofSeconds 86300⟩
    let after : CheckIn := ⟨some "a", .ofSeconds 86500⟩
    let late : CheckIn := ⟨some "a", .ofSeconds 86350⟩
    JobBuilder.autoQuest.build plan (.ofSeconds 0) = .ok j
      ∧ ¬ questsOn 0 "a" firstDay (j.steps ([before, after, late].map CheckIn.act)) ≤ 1 := by
  intro plan firstDay j before after late
  refine ⟨rfl, ?_⟩
  decide +kernel

end Job

end ScanFleet
