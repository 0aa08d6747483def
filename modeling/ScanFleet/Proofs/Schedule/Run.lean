import ScanFleet.Proofs.Schedule.Passing

set_option autoImplicit false

/-! # Runs of a schedule

A run is a list of events: ticks, and changes of the rules between them. `Schedule.firedDays` lists
the days for which a run fires a rule, one entry for each firing. For a rule that stands through the
whole run the days can be counted without looking at the schedule: the rule is fired for a day as
often as the ticks of the run pass its time on that day (`Schedule.count_firedDays`). What is proved
of whole runs is then proved of the ticks alone. -/

namespace ScanFleet

/-- A change of the rules of a schedule. -/
inductive RuleChange where
  | load (stored : Table Assignment)
  | add (a : Assignment)
  | edit (old : UInt32) (a : Assignment)
  | delete (id : UInt32)
  | deleteAll

/-- What can happen to a schedule. -/
inductive ScheduleEvent where
  | tick (now : Watermark)
  | change (change : RuleChange)

/-- Whether the rule holds on a day of the calendar. -/
def Assignment.HoldsOnDay (a : Assignment) (day : Int) : Prop :=
  ∃ e : Date, e.day = day ∧ a.holdsOn e = true

instance (a : Assignment) (day : Int) : Decidable (a.HoldsOnDay day) :=
  decidable_of_iff ((Date.ofDay? day).any a.holdsOn = true) <| by
    simp only [Option.any_eq_true, Date.ofDay?_eq_some_iff, Assignment.HoldsOnDay]

theorem Assignment.holdsOnDay_day {a : Assignment} {e : Date} :
    a.HoldsOnDay e.day ↔ a.holdsOn e = true := by
  constructor
  · rintro ⟨other, hday, hon⟩
    exact Date.ext_day hday ▸ hon
  · intro hon
    exact ⟨e, rfl, hon⟩

namespace Schedule

/-! ## Events -/

/-- The schedule after a change of its rules; nothing changes when the change is refused. -/
def change (s : Schedule) : RuleChange → Schedule
  | .load stored => s.load stored.rows
  | .add a => (s.add a).toOption.getD s
  | .edit old a => (s.edit old a).2
  | .delete id => (s.delete id).toOption.getD s
  | .deleteAll => s.deleteAll

/-- The schedule after an event. -/
def handle (s : Schedule) : ScheduleEvent → Schedule
  | .tick now => (s.tick now.date now.second).2
  | .change change => s.change change

/-- The schedules of a run, the first and the last one among them. -/
def states (s : Schedule) : List ScheduleEvent → List Schedule
  | [] => [s]
  | event :: rest => s :: (s.handle event).states rest

/-- The ticks of a run. -/
def ticks : List ScheduleEvent → List Watermark
  | [] => []
  | .tick now :: rest => now :: ticks rest
  | .change _ :: rest => ticks rest

/-- The days for which a run fires a rule, one for each firing, in order. A firing is for the day of
    the tick, or for the day before when the time of the rule is yet to come on the day of the tick. -/
def firedDays (s : Schedule) (a : Assignment) : List ScheduleEvent → List Int
  | [] => []
  | .tick now :: rest =>
    List.replicate ((s.tick now.date now.second).1.count a)
        (now.moment.lastShowing a.time.toNat).day
      ++ (s.handle (.tick now)).firedDays a rest
  | .change change :: rest => (s.handle (.change change)).firedDays a rest

/-! ## Ids -/

/-- No two rules have one id. -/
def Distinct (s : Schedule) : Prop := s.rules.Pairwise fun a b => a.id ≠ b.id

theorem Distinct.nodup {s : Schedule} (h : s.Distinct) : s.rules.Nodup :=
  h.imp fun hid heq => hid (congrArg Assignment.id heq)

theorem distinct_add {s t : Schedule} {a : Assignment} (h : s.Distinct) (hadd : s.add a = .ok t) :
    t.Distinct := by
  unfold add at hadd
  split at hadd
  · cases hadd
  · split at hadd
    · cases hadd
    · rename_i hnew
      obtain rfl := Except.ok.inj hadd
      refine List.pairwise_append.2 ⟨h, List.pairwise_singleton _ _, ?_⟩
      intro b hb c hc
      obtain rfl := List.mem_singleton.1 hc
      have hnone : s.rule? c.id = none := Option.not_isSome_iff_eq_none.1 hnew
      simpa using List.find?_eq_none.1 hnone b hb

theorem distinct_delete {s t : Schedule} {id : UInt32} (h : s.Distinct)
    (hdelete : s.delete id = .ok t) : t.Distinct := by
  unfold delete at hdelete
  split at hdelete
  · cases hdelete
  · obtain rfl := Except.ok.inj hdelete
    exact h.sublist List.filter_sublist

theorem distinct_edit {s : Schedule} {old : UInt32} {a : Assignment} (h : s.Distinct) :
    (s.edit old a).2.Distinct := by
  unfold edit
  split
  · exact h
  · split
    · exact h
    · rename_i t hdelete
      have ht := distinct_delete h hdelete
      split
      · exact ht
      · rename_i u hadd
        exact distinct_add ht hadd

/-- The rules of a table have distinct ids. -/
theorem distinct_load (s : Schedule) (stored : Table Assignment) : (s.load stored.rows).Distinct := by
  refine List.Pairwise.sublist List.filter_sublist (stored.ascending.imp ?_)
  intro a b hlt heq
  have hself : compare (key a) (key b) = .eq := Std.LawfulEqCmp.compare_eq_iff_eq.2 heq
  rw [hlt] at hself
  cases hself

theorem distinct_change {s : Schedule} (h : s.Distinct) (change : RuleChange) :
    (s.change change).Distinct := by
  cases change with
  | load stored => exact s.distinct_load stored
  | add a =>
    rw [Schedule.change]
    cases hadd : s.add a with
    | error error => exact h
    | ok t => exact distinct_add h hadd
  | edit old a => exact distinct_edit h
  | delete id =>
    rw [Schedule.change]
    cases hdelete : s.delete id with
    | error error => exact h
    | ok t => exact distinct_delete h hdelete
  | deleteAll => exact List.Pairwise.nil

theorem distinct_handle {s : Schedule} (h : s.Distinct) (event : ScheduleEvent) :
    (s.handle event).Distinct := by
  cases event with
  | tick now =>
    show (s.tick now.date now.second).2.Distinct
    rw [tick_eq]
    exact h
  | change change => exact distinct_change h change

/-! ## The watermark -/

theorem watermark_add {s t : Schedule} {a : Assignment} (h : s.add a = .ok t) :
    t.watermark = s.watermark := by
  unfold add at h
  split at h
  · cases h
  · split at h
    · cases h
    · rw [← Except.ok.inj h]

theorem watermark_delete {s t : Schedule} {id : UInt32} (h : s.delete id = .ok t) :
    t.watermark = s.watermark := by
  unfold delete at h
  split at h
  · cases h
  · rw [← Except.ok.inj h]

theorem watermark_edit (s : Schedule) (old : UInt32) (a : Assignment) :
    (s.edit old a).2.watermark = s.watermark := by
  unfold edit
  split
  · rfl
  · split
    · rfl
    · rename_i t hdelete
      split
      · exact watermark_delete hdelete
      · rename_i u hadd
        exact (watermark_add hadd).trans (watermark_delete hdelete)

/-- A change of the rules leaves the watermark alone. -/
theorem watermark_change (s : Schedule) (change : RuleChange) :
    (s.change change).watermark = s.watermark := by
  cases change with
  | load stored => rfl
  | add a =>
    rw [Schedule.change]
    cases hadd : s.add a with
    | error error => rfl
    | ok t => exact watermark_add hadd
  | edit old a => exact s.watermark_edit old a
  | delete id =>
    rw [Schedule.change]
    cases hdelete : s.delete id with
    | error error => rfl
    | ok t => exact watermark_delete hdelete
  | deleteAll => rfl

/-! ## Firings of a standing rule -/

/-- An enabled clock rule that is in force through a whole run. -/
structure Stands (s : Schedule) (a : Assignment) (events : List ScheduleEvent) : Prop where
  enabled : a.enabled = true
  timed : a.time ≠ 0
  kept : ∀ t ∈ s.states events, a ∈ t.rules

theorem Stands.mem_rules {s : Schedule} {a : Assignment} {events : List ScheduleEvent}
    (h : s.Stands a events) : a ∈ s.rules := by
  cases events with
  | nil => exact h.kept s (List.mem_singleton_self s)
  | cons event rest => exact h.kept s List.mem_cons_self

theorem Stands.tail {s : Schedule} {a : Assignment} {event : ScheduleEvent}
    {rest : List ScheduleEvent} (h : s.Stands a (event :: rest)) : (s.handle event).Stands a rest :=
  ⟨h.enabled, h.timed, fun t ht => h.kept t (List.mem_cons_of_mem s ht)⟩

/-- A tick fires a rule in force at most once. -/
theorem nodup_tick {s : Schedule} (h : s.Distinct) (now : Watermark) :
    (s.tick now.date now.second).1.Nodup := by
  have hclock : s.clockRules.Nodup := h.nodup.sublist List.filter_sublist
  unfold tick
  split
  · exact List.nodup_nil
  · split
    · exact hclock.sublist List.filter_sublist
    · split
      · exact List.nodup_nil
      · exact hclock.sublist List.filter_sublist

/-- A tick fires a standing rule for a day once, if it passes the time of the rule on that day and
    the rule holds on it, and else not at all. -/
theorem count_replicate_tick {s : Schedule} {a : Assignment} (h : s.Distinct) (hmem : a ∈ s.clockRules)
    (now : Watermark) (day : Int) :
    (List.replicate ((s.tick now.date now.second).1.count a)
        (now.moment.lastShowing a.time.toNat).day).count day
      = if a.HoldsOnDay day ∧ Watermark.Passes s.watermark now ⟨day, a.time.toNat⟩ then 1 else 0 := by
  have hiff : a ∈ (s.tick now.date now.second).1 ↔ ∃ e : Date, a.holdsOn e = true
      ∧ Watermark.Passes s.watermark now ⟨e.day, a.time.toNat⟩ :=
    mem_tick_iff.trans (and_iff_right hmem)
  rw [List.count_replicate, (nodup_tick h now).count]
  by_cases hfired : a ∈ (s.tick now.date now.second).1
  · obtain ⟨e, hon, hpasses⟩ := hiff.1 hfired
    have hday : (now.moment.lastShowing a.time.toNat).day = e.day :=
      (congrArg Moment.day hpasses.eq_lastShowing).symm
    rw [hday, if_pos hfired]
    -- a tick passes the time of the rule on one day at most
    by_cases heq : e.day = day
    · subst heq
      rw [if_pos (beq_self_eq_true _), if_pos ⟨Assignment.holdsOnDay_day.2 hon, hpasses⟩]
    · rw [if_neg (by simpa using heq), if_neg]
      rintro ⟨-, hother⟩
      exact heq (hday.symm.trans (congrArg Moment.day hother.eq_lastShowing).symm)
  · rw [if_neg hfired, ite_self, if_neg]
    rintro ⟨⟨e, hday, hon⟩, hpasses⟩
    exact hfired (hiff.2 ⟨e, hon, hday ▸ hpasses⟩)

/-- A run fires a standing rule for a day as often as its ticks pass the time of the rule on that
    day, if the rule holds on it, and else not at all. -/
theorem count_firedDays {s : Schedule} {a : Assignment} {events : List ScheduleEvent}
    (h : s.Distinct) (hstands : s.Stands a events) (day : Int) :
    (s.firedDays a events).count day
      = if a.HoldsOnDay day then
          (Watermark.passing s.watermark ⟨day, a.time.toNat⟩ (ticks events)).length
        else 0 := by
  induction events generalizing s with
  | nil => simp [firedDays, ticks, Watermark.passing]
  | cons event rest ih =>
    have hrest := ih (distinct_handle h event) hstands.tail
    cases event with
    | tick now =>
      have hmem : a ∈ s.clockRules :=
        mem_clockRules_iff.2 ⟨hstands.mem_rules, hstands.enabled, hstands.timed⟩
      rw [firedDays, List.count_append, count_replicate_tick h hmem, hrest]
      rw [ticks, Watermark.passing, show (s.handle (.tick now)).watermark
        = some (Watermark.next s.watermark now) from s.watermark_tick now]
      by_cases hholds : a.HoldsOnDay day
      · by_cases hpasses : Watermark.Passes s.watermark now ⟨day, a.time.toNat⟩
        · simp [hholds, hpasses, Nat.add_comm]
        · simp [hholds, hpasses]
      · simp [hholds]
    | change change =>
      -- a change of the rules moves neither the watermark nor the standing rule
      rw [show (s.handle (.change change)).watermark = s.watermark from s.watermark_change change]
        at hrest
      exact hrest

end Schedule

end ScanFleet
