import ScanFleet.Proofs.Schedule.Run

set_option autoImplicit false

/-! # Fired once, twice and not at all

A run is **steady** when its date goes on by a day at most and each new date begins earlier in the
day than the last one was left. Over a steady run every tick passes just what lies between the
high-water mark and the tick, so the ticks split the span of the run among them and a standing rule
is fired once for each of its occurrences in the span (`Schedule.mem_firedDays_of_steady`).

Off the steady path the seconds of the watermark mislead. A tick on a date before that of the
watermark passes again what was passed, and so does every tick after it until the old mark is
reached: a rule is fired for each date once exactly when no two ticks pass the same occurrence of it
(`Schedule.nodup_firedDays_iff`). A tick a day or more after the watermark passes what the clock
has shown since it last showed the second of the watermark, and the days before that are lost
(`Schedule.mem_tick_iff_of_gap`). -/

namespace ScanFleet

namespace Watermark

/-! ## Steady runs -/

/-- Whether a moment lies in the span of a run: after its first tick, and up to its high-water mark,
    which is to say up to one of its ticks. -/
def Spans (ticks : List Watermark) (m : Moment) : Prop :=
  (∃ first ∈ ticks.head?, first.moment < m) ∧ ∃ now ∈ ticks, m ≤ now.moment

instance (ticks : List Watermark) (m : Moment) : Decidable (Spans ticks m) :=
  inferInstanceAs (Decidable (_ ∧ _))

/-- From one tick to the next the date stays, or it goes on by a day and the new day has not come as
    far as some tick of the last one had. -/
def Steady (ticks : List Watermark) : Prop :=
  ∀ before x y after, ticks = before ++ x :: y :: after →
    y.date = x.date ∨
      y.date.day = x.date.day + 1 ∧ ∃ z ∈ before ++ [x], z.date = x.date ∧ y.second < z.second

/-- Where the clock last showed the second of the watermark at the watermark itself, a tick passes
    what lies between the two. -/
theorem passes_iff_between {mark now : Watermark} {m : Moment} (hmoves : ¬ mark.Holds now)
    (hnear : now.moment.lastShowing mark.second = mark.moment) :
    Passes (some mark) now m ↔ mark.moment < m ∧ m ≤ now.moment := by
  rw [Passes, hnear]
  exact and_iff_right hmoves

/-- In a steady run a tick that is not held comes within a day of the high-water mark. -/
theorem lastShowing_eq_of_steady {before rest : List Watermark} {x now mark : Watermark}
    (hsteady : Steady (before ++ x :: now :: rest)) (hdate : mark.date = x.date)
    (hmax : ∀ z ∈ before ++ [x], z.moment ≤ mark.moment) (hmoves : ¬ mark.Holds now) :
    now.moment.lastShowing mark.second = mark.moment := by
  rcases hsteady before x now rest rfl with hsame | ⟨hnext, z, hz, hzdate, hearlier⟩
  · have hle : mark.second ≤ now.second :=
      Nat.not_lt.1 fun hlt => hmoves ⟨hdate.trans hsame.symm, hlt⟩
    rw [Moment.lastShowing, if_pos (show mark.second ≤ now.moment.second from hle), moment, moment,
      hdate, hsame]
  · have hbelow : z.second ≤ mark.second := by
      have hzmax := hmax z hz
      rw [Moment.le_iff, moment, moment, hzdate, hdate] at hzmax
      dsimp only at hzmax
      omega
    have hlt : ¬ mark.second ≤ now.moment.second := by
      show ¬ mark.second ≤ now.second
      omega
    rw [Moment.lastShowing, if_neg hlt, moment, moment, hdate, hnext, Int.add_sub_cancel]

theorem length_passing_cons (mark : Option Watermark) (m : Moment) (now : Watermark)
    (rest : List Watermark) :
    (passing mark m (now :: rest)).length
      = (if Passes mark now m then 1 else 0) + (passing (next mark now) m rest).length := by
  rw [passing]
  split
  · rw [List.length_cons, Nat.add_comm]
  · rw [Nat.zero_add]

/-- The rest of a steady run passes a moment once, if it lies after the high-water mark so far and up
    to that of the whole run, and else not at all. -/
theorem length_passing_of_mark {before rest : List Watermark} {x mark : Watermark} (m : Moment)
    (hsteady : Steady (before ++ x :: rest)) (hdate : mark.date = x.date)
    (hmax : ∀ z ∈ before ++ [x], z.moment ≤ mark.moment) :
    (passing (some mark) m rest).length
      = if mark.moment < m ∧ ∃ now ∈ rest, m ≤ now.moment then 1 else 0 := by
  induction rest generalizing before x mark with
  | nil => simp [passing]
  | cons now rest ih =>
    have hsteady' : Steady ((before ++ [x]) ++ now :: rest) := by simpa using hsteady
    have hmax' : ∀ w : Moment, mark.moment ≤ w → now.moment ≤ w →
        ∀ z ∈ (before ++ [x]) ++ [now], z.moment ≤ w := by
      intro w hmark hnow z hz
      rcases List.mem_append.1 hz with hz | hz
      · exact Moment.le_trans (hmax z hz) hmark
      · rw [List.mem_singleton.1 hz]
        exact hnow
    rw [length_passing_cons]
    by_cases hheld : mark.Holds now
    · -- the high-water mark stays, and the tick does not come up to it
      have hle : now.moment ≤ mark.moment :=
        Or.inr ⟨congrArg Date.day hheld.1.symm, Nat.le_of_lt hheld.2⟩
      rw [next, if_pos hheld, if_neg (not_passes_of_holds hheld), Nat.zero_add,
        ih hsteady' hheld.1 (hmax' _ (Moment.le_refl _) hle)]
      by_cases hm : m ≤ now.moment
      · have hbelow : ¬ mark.moment < m := Moment.not_lt.2 (Moment.le_trans hm hle)
        simp [hbelow]
      · simp [hm]
    · -- the tick is the new high-water mark, and passes what lies between the old one and itself
      have hnear := lastShowing_eq_of_steady hsteady hdate hmax hheld
      have hle : mark.moment ≤ now.moment := hnear ▸ Moment.lastShowing_le _ _
      have hpasses : Passes (some mark) now m ↔ mark.moment < m ∧ m ≤ now.moment :=
        passes_iff_between hheld hnear
      rw [next, if_neg hheld, ih hsteady' rfl (hmax' _ hle (Moment.le_refl _))]
      by_cases hm : m ≤ now.moment
      · have hpast : ¬ now.moment < m := Moment.not_lt.2 hm
        simp [hpasses, hm, hpast]
      · have hbeyond : now.moment < m := Moment.not_le.1 hm
        have hafter : mark.moment < m := Moment.lt_of_le_of_lt hle hbeyond
        simp [hpasses, hm, hbeyond, hafter]

/-- A steady run passes a moment once, if it lies in its span, and else not at all. -/
theorem length_passing_of_steady {ticks : List Watermark} (m : Moment) (hsteady : Steady ticks) :
    (passing none m ticks).length = if Spans ticks m then 1 else 0 := by
  cases ticks with
  | nil => simp [passing, Spans]
  | cons first rest =>
    have hspans : Spans (first :: rest) m ↔ first.moment < m ∧ ∃ now ∈ rest, m ≤ now.moment := by
      simp only [Spans, List.head?_cons, Option.mem_some_iff, exists_eq_left', List.mem_cons,
        exists_eq_or_imp]
      refine and_congr_right fun hafter => or_iff_right (Moment.not_le.2 hafter)
    have hfirst : ∀ z ∈ [] ++ [first], z.moment ≤ first.moment := by
      intro z hz
      rw [List.mem_singleton.1 hz]
      exact Moment.le_refl _
    have hrest : Steady ([] ++ first :: rest) := hsteady
    have hnothing : ¬ Passes none first m := fun h => h
    rw [length_passing_cons, if_neg hnothing, next, length_passing_of_mark m hrest rfl hfirst,
      Nat.zero_add]
    simp only [hspans]

/-! ## Runs that go forward -/

/-- The date does not go back along a list of ticks. -/
def Forward (ticks : List Watermark) : Prop :=
  ticks.Pairwise fun x y => x.date.day ≤ y.date.day

/-- A tick that goes forward passes nothing up to the watermark. -/
theorem moment_le_lastShowing {mark now : Watermark} (hmoves : ¬ mark.Holds now)
    (hforward : mark.date.day ≤ now.date.day) :
    mark.moment ≤ now.moment.lastShowing mark.second := by
  refine (Moment.le_lastShowing_iff (k := mark.moment)).2 (Moment.le_iff.2 ?_)
  rcases Int.lt_or_eq_of_le hforward with hlt | heq
  · exact Or.inl hlt
  · exact Or.inr ⟨heq, Nat.not_lt.1 fun hlt => hmoves ⟨Date.ext_day heq, hlt⟩⟩

/-- The watermark after a tick goes on forward with the ticks that follow. -/
theorem forward_next {mark : Option Watermark} {now : Watermark} {rest : List Watermark}
    (hforward : Forward (mark.toList ++ now :: rest)) : Forward (next mark now :: rest) := by
  cases mark with
  | none => exact hforward
  | some mark =>
    rw [next]
    split
    · exact List.Pairwise.sublist ((List.sublist_cons_self now rest).cons_cons mark) hforward
    · exact (List.pairwise_cons.1 hforward).2

/-- Ticks that go forward pass no moment up to the watermark. -/
theorem passing_eq_nil_of_forward {ticks : List Watermark} {mark : Watermark} {m : Moment}
    (hforward : Forward (mark :: ticks)) (hm : m ≤ mark.moment) :
    passing (some mark) m ticks = [] := by
  induction ticks generalizing mark with
  | nil => rfl
  | cons now rest ih =>
    have hrest : Forward (next (some mark) now :: rest) := forward_next hforward
    by_cases hheld : mark.Holds now
    · rw [next, if_pos hheld] at hrest
      rw [passing, if_neg (not_passes_of_holds hheld), next, if_pos hheld, ih hrest hm]
    · rw [next, if_neg hheld] at hrest
      have hday : mark.date.day ≤ now.date.day :=
        (List.pairwise_cons.1 hforward).1 now List.mem_cons_self
      have hreach : m ≤ now.moment.lastShowing mark.second :=
        Moment.le_trans hm (moment_le_lastShowing hheld hday)
      have hnot : ¬ Passes (some mark) now m := fun h => Moment.not_lt.2 hreach h.2.1
      rw [passing, if_neg hnot, next, if_neg hheld,
        ih hrest (Moment.le_trans hreach (Moment.lastShowing_le _ _))]

/-- Ticks that go forward pass no moment twice, however long they pause. -/
theorem length_passing_of_forward {ticks : List Watermark} {mark : Option Watermark} (m : Moment)
    (hforward : Forward (mark.toList ++ ticks)) : (passing mark m ticks).length ≤ 1 := by
  induction ticks generalizing mark with
  | nil => exact Nat.zero_le 1
  | cons now rest ih =>
    have hrest : Forward (next mark now :: rest) := forward_next hforward
    by_cases hpasses : Passes mark now m
    · cases mark with
      | none => exact hpasses.elim
      | some mark =>
        have hmoves : ¬ mark.Holds now := hpasses.1
        rw [next, if_neg hmoves] at hrest
        rw [passing, if_pos hpasses, next, if_neg hmoves,
          passing_eq_nil_of_forward hrest hpasses.2.2]
        exact Nat.le_refl 1
    · rw [passing, if_neg hpasses]
      have hlater : Forward ((some (next mark now)).toList ++ rest) := hrest
      exact ih hlater

end Watermark

namespace Schedule

/-! ## Exactly once -/

/-- A rule for ten past midnight. -/
def tenPast : Assignment := { id := 1, target := "Night", device := some "dev-1", time := 600 }

/-- A rule for half past midnight. -/
def halfPast : Assignment := { id := 2, target := "Day", device := some "dev-2", time := 1800 }

/-- A day. -/
def eve : Date := ⟨20745, by decide, by decide⟩

/-- The day after `eve`. -/
def morrow : Date := ⟨20746, by decide, by decide⟩

/-- A steady run that begins without a watermark fires a standing rule exactly once for each day on
    which the rule holds and whose time of the rule lies in the span of the run, and for no other. -/
theorem mem_firedDays_of_steady {s : Schedule} {a : Assignment} {events : List ScheduleEvent}
    (hnew : s.watermark = none) (hdistinct : s.Distinct) (hstands : s.Stands a events)
    (hsteady : Watermark.Steady (ticks events)) :
    (s.firedDays a events).Nodup
      ∧ ∀ day, day ∈ s.firedDays a events
        ↔ a.HoldsOnDay day ∧ Watermark.Spans (ticks events) ⟨day, a.time.toNat⟩ := by
  have hcount : ∀ day, (s.firedDays a events).count day
      = if a.HoldsOnDay day ∧ Watermark.Spans (ticks events) ⟨day, a.time.toNat⟩ then 1 else 0 := by
    intro day
    rw [count_firedDays hdistinct hstands, hnew, Watermark.length_passing_of_steady _ hsteady]
    by_cases hholds : a.HoldsOnDay day
    · simp only [hholds, if_true, true_and]
    · simp only [hholds, if_false, false_and]
  refine ⟨List.nodup_iff_count.2 fun day => ?_, fun day => ?_⟩
  · rw [hcount]
    split
    · exact Nat.le_refl 1
    · exact Nat.zero_le 1
  · rw [← List.count_pos_iff, hcount]
    split <;> simp [*]

/-- A run over a midnight, in which the clock goes back once and another rule is added. -/
def overMidnight : List ScheduleEvent :=
  [.tick ⟨eve, 500⟩, .tick ⟨eve, 86000⟩, .change (.add halfPast), .tick ⟨eve, 85000⟩,
    .tick ⟨morrow, 30⟩, .tick ⟨morrow, 700⟩]

theorem steady_overMidnight : Watermark.Steady (ticks overMidnight) := by
  intro before x y after h
  match before with
  | [] =>
    obtain ⟨rfl, rfl, -⟩ : _ ∧ _ ∧ _ := by simpa [overMidnight, ticks] using h
    exact Or.inl rfl
  | [_] =>
    obtain ⟨-, rfl, rfl, -⟩ : _ ∧ _ ∧ _ ∧ _ := by simpa [overMidnight, ticks] using h
    exact Or.inl rfl
  | [_, b] =>
    -- the clock went back, and the first date was left at the second tick
    obtain ⟨-, rfl, rfl, rfl, -⟩ : _ ∧ _ ∧ _ ∧ _ ∧ _ := by simpa [overMidnight, ticks] using h
    exact Or.inr ⟨rfl, _, List.mem_cons_of_mem _ List.mem_cons_self, rfl, by decide⟩
  | [_, _, _] =>
    obtain ⟨-, -, -, rfl, rfl, -⟩ : _ ∧ _ ∧ _ ∧ _ ∧ _ ∧ _ := by
      simpa [overMidnight, ticks] using h
    exact Or.inl rfl
  | _ :: _ :: _ :: _ :: rest =>
    have hlength := congrArg List.length h
    simp only [overMidnight, ticks, List.length_cons, List.length_nil, List.cons_append,
      List.length_append] at hlength
    omega

theorem firedDays_overMidnight :
    ({ rules := [tenPast] } : Schedule).Distinct
      ∧ ({ rules := [tenPast] } : Schedule).Stands tenPast overMidnight
      ∧ Watermark.Steady (ticks overMidnight)
      ∧ (({ rules := [tenPast] } : Schedule).firedDays tenPast overMidnight).Nodup
      ∧ ∀ day, day ∈ ({ rules := [tenPast] } : Schedule).firedDays tenPast overMidnight
        ↔ tenPast.HoldsOnDay day ∧ Watermark.Spans (ticks overMidnight) ⟨day, 600⟩ := by
  have hdistinct : ({ rules := [tenPast] } : Schedule).Distinct := List.pairwise_singleton _ _
  have hstands : ({ rules := [tenPast] } : Schedule).Stands tenPast overMidnight :=
    ⟨rfl, by decide, by decide⟩
  exact ⟨hdistinct, hstands, steady_overMidnight,
    mem_firedDays_of_steady rfl hdistinct hstands steady_overMidnight⟩

/-! ## Twice -/

/-- A run fires a standing rule at most once for each date exactly when no two of its ticks pass the
    time of the rule on a date on which it holds. -/
theorem nodup_firedDays_iff {s : Schedule} {a : Assignment} {events : List ScheduleEvent}
    (hdistinct : s.Distinct) (hstands : s.Stands a events) :
    (s.firedDays a events).Nodup
      ↔ ∀ e : Date, a.holdsOn e = true →
        (Watermark.passing s.watermark ⟨e.day, a.time.toNat⟩ (ticks events)).length ≤ 1 := by
  rw [List.nodup_iff_count]
  constructor
  · intro h e hon
    have hday := h e.day
    rwa [count_firedDays hdistinct hstands, if_pos (Assignment.holdsOnDay_day.2 hon)] at hday
  · intro h day
    rw [count_firedDays hdistinct hstands]
    split
    · rename_i hholds
      obtain ⟨e, rfl, hon⟩ := hholds
      exact h e hon
    · exact Nat.zero_le 1

/-- A run in which the clock is set back by an hour at half past midnight, over the midnight, and gets
    to where it was. -/
def setBack : List ScheduleEvent :=
  [.tick ⟨morrow, 100⟩, .tick ⟨morrow, 1800⟩, .tick ⟨eve, 84600⟩, .tick ⟨morrow, 1800⟩]

theorem nodup_firedDays_setBack_iff :
    ({ rules := [tenPast] } : Schedule).Distinct
      ∧ ({ rules := [tenPast] } : Schedule).Stands tenPast setBack
      ∧ ((({ rules := [tenPast] } : Schedule).firedDays tenPast setBack).Nodup
        ↔ ∀ e : Date, tenPast.holdsOn e = true →
          (Watermark.passing none ⟨e.day, 600⟩ (ticks setBack)).length ≤ 1) := by
  have hdistinct : ({ rules := [tenPast] } : Schedule).Distinct := List.pairwise_singleton _ _
  have hstands : ({ rules := [tenPast] } : Schedule).Stands tenPast setBack :=
    ⟨rfl, by decide, by decide⟩
  exact ⟨hdistinct, hstands, nodup_firedDays_iff hdistinct hstands⟩

/-- A clock that is set back over midnight fires a rule twice for one date. -/
theorem refires_after_setBack :
    ¬ ∀ (s : Schedule) (a : Assignment) (events : List ScheduleEvent),
      s.watermark = none → s.Distinct → s.Stands a events →
      (∃ before x y after, ticks events = before ++ x :: y :: after ∧ y.date.day < x.date.day) →
      (s.firedDays a events).Nodup := by
  intro h
  have hnodup := h { rules := [tenPast] } tenPast setBack rfl (List.pairwise_singleton _ _)
    ⟨rfl, by decide, by decide⟩ ⟨[⟨morrow, 100⟩], ⟨morrow, 1800⟩, ⟨eve, 84600⟩, _, rfl, by decide⟩
  have hdays : ({ rules := [tenPast] } : Schedule).firedDays tenPast setBack = [20746, 20746] := by
    decide
  rw [hdays] at hnodup
  exact absurd hnodup (by decide)

/-- A run whose date does not go back fires a standing rule at most once for each date. -/
theorem nodup_firedDays_of_forward {s : Schedule} {a : Assignment} {events : List ScheduleEvent}
    (hdistinct : s.Distinct) (hstands : s.Stands a events)
    (hforward : Watermark.Forward (s.watermark.toList ++ ticks events)) :
    (s.firedDays a events).Nodup := by
  rw [List.nodup_iff_count]
  intro day
  rw [count_firedDays hdistinct hstands]
  split
  · exact Watermark.length_passing_of_forward _ hforward
  · exact Nat.zero_le 1

/-! ## Not at all -/

/-- A tick on a later date, a day or more after the watermark, does not reach back to it. It fires
    the rules that have an occurrence since the clock last showed the second of the watermark, and
    no others. -/
theorem mem_tick_iff_of_gap {s : Schedule} {mark now : Watermark} {a : Assignment}
    (hmark : s.watermark = some mark) (hlater : mark.date.day < now.date.day)
    (hgap : now.date.day = mark.date.day + 1 → mark.second ≤ now.second)
    (hrule : a ∈ s.rules) (henabled : a.enabled = true) (htimed : a.time ≠ 0) :
    mark.moment < now.moment.lastShowing mark.second
      ∧ (a ∈ (s.tick now.date now.second).1 ↔
        ∃ e : Date, a.holdsOn e = true
          ∧ now.moment.lastShowing mark.second < ⟨e.day, a.time.toNat⟩
          ∧ ⟨e.day, a.time.toNat⟩ ≤ now.moment) := by
  have hmoves : ¬ mark.Holds now := fun h => Int.ne_of_lt hlater (congrArg Date.day h.1)
  refine ⟨?_, ?_⟩
  · rw [Moment.lt_iff, Moment.lastShowing]
    split
    · exact Or.inl hlater
    · rename_i hbefore
      have hshort : ¬ mark.second ≤ now.second := hbefore
      exact Or.inl (by simp only [Watermark.moment]; omega)
  · rw [mem_tick_iff, hmark, and_iff_right (mem_clockRules_iff.2 ⟨hrule, henabled, htimed⟩)]
    simp only [Watermark.Passes, hmoves, not_false_eq_true, true_and]

/-- The last tick before a pause. -/
def pausedAt : Watermark := ⟨eve, 800⟩

/-- The first tick after it, a day and a hundred seconds later. -/
def resumedAt : Watermark := ⟨morrow, 900⟩

/-- A schedule in the pause. -/
def paused : Schedule := { rules := [tenPast], watermark := some pausedAt }

theorem mem_tick_paused_iff :
    paused.watermark = some pausedAt ∧ pausedAt.date.day < resumedAt.date.day
      ∧ (resumedAt.date.day = pausedAt.date.day + 1 → pausedAt.second ≤ resumedAt.second)
      ∧ tenPast ∈ paused.rules ∧ tenPast.enabled = true ∧ tenPast.time ≠ 0
      ∧ pausedAt.moment < resumedAt.moment.lastShowing pausedAt.second
      ∧ (tenPast ∈ (paused.tick resumedAt.date resumedAt.second).1 ↔
        ∃ e : Date, tenPast.holdsOn e = true
          ∧ resumedAt.moment.lastShowing pausedAt.second < ⟨e.day, tenPast.time.toNat⟩
          ∧ ⟨e.day, tenPast.time.toNat⟩ ≤ resumedAt.moment) := by
  have hmark : paused.watermark = some pausedAt := rfl
  have hlater : pausedAt.date.day < resumedAt.date.day := by decide
  have hgap : resumedAt.date.day = pausedAt.date.day + 1 → pausedAt.second ≤ resumedAt.second := by
    decide
  have hrule : tenPast ∈ paused.rules := by decide
  have htimed : tenPast.time ≠ 0 := by decide
  exact ⟨hmark, hlater, hgap, hrule, rfl, htimed,
    mem_tick_iff_of_gap hmark hlater hgap hrule rfl htimed⟩

/-- A rule whose time came while the ticks paused for a day is lost. -/
theorem lost_over_pause :
    ¬ ∀ (s : Schedule) (mark now : Watermark) (a : Assignment),
      s.watermark = some mark → mark.date.day < now.date.day →
      (now.date.day = mark.date.day + 1 → mark.second ≤ now.second) →
      a ∈ s.rules → a.enabled = true → a.time ≠ 0 → a.time.toNat < secondsPerDay →
      (∃ e : Date, a.holdsOn e = true ∧ mark.moment < ⟨e.day, a.time.toNat⟩
        ∧ ⟨e.day, a.time.toNat⟩ ≤ now.moment) →
      a ∈ (s.tick now.date now.second).1 := by
  intro h
  have hfired := h paused pausedAt resumedAt tenPast rfl (by decide) (by decide) (by decide) rfl
    (by decide) (by decide) ⟨morrow, by decide, by decide, by decide⟩
  exact absurd hfired (by decide)

end Schedule

end ScanFleet
