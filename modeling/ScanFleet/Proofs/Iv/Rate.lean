import Mathlib.Data.List.TakeWhile
import ScanFleet.Proofs.Iv.Operations

set_option autoImplicit false

/-! # The rate of checks

A store remembers its checks in the order in which they were recorded. Asked for those since an
instant, it forgets older ones at the front, stops at the first that is recent enough, and answers how
many are left. So an older check that was recorded behind a recent one counts as well
(`EncounterStore.shielded`), and the answer is right exactly when there is none of these
(`EncounterStore.rate_exact_iff`), as when the checks were recorded in the order of time.

What a question forgets lies before its instant. So questions change no later answer, as long as none
of them is about a later instant (`EncounterStore.rate_of_asked`). -/

namespace ScanFleet

theorem Instant.before_eq_true_iff {a b : Instant} :
    a.before b = true ↔ a.seconds < b.seconds ∨ a.seconds = b.seconds ∧ a.nanos < b.nanos := by
  simp [before]

theorem Instant.before_of_before_of_not_before {a b c : Instant} (hab : a.before b = true)
    (hcb : c.before b ≠ true) : a.before c = true := by
  simp only [ne_eq, before_eq_true_iff] at *
  omega

theorem Instant.before_of_not_before_of_before {a b c : Instant} (hba : b.before a ≠ true)
    (hbc : b.before c = true) : a.before c = true := by
  simp only [ne_eq, before_eq_true_iff] at *
  omega

namespace EncounterStore

/-- What is asked of a store about checks. -/
inductive CheckCall where
  | record (check : Instant)
  | rate (since : Instant)

/-- The store after a call. -/
def answered (s : EncounterStore) : CheckCall → Except JobError EncounterStore
  | .record check => (s.recordCheck check).map (·.2)
  | .rate since => (s.checksSince since).map (·.2)

/-- The store after calls. -/
def answeredAll (s : EncounterStore) (calls : List CheckCall) : Except JobError EncounterStore :=
  calls.foldlM answered s

/-- The check that a call records. -/
def CheckCall.recorded? : CheckCall → Option Instant
  | .record check => some check
  | .rate _ => none

/-- How many checks were made at or after an instant. -/
def recent (checks : List Instant) (since : Instant) : Nat :=
  checks.countP fun check => !check.before since

/-- How many checks lie before an instant and were recorded behind one that does not. -/
def shielded (checks : List Instant) (since : Instant) : Nat :=
  (checks.dropWhile fun check => check.before since).countP fun check => check.before since

/-! ## Checks at the front -/

variable {checks : List Instant} {since earlier : Instant}

/-- Forgetting older checks at the front forgets no recent one. -/
theorem recent_dropWhile (checks : List Instant) (since : Instant) :
    recent (checks.dropWhile fun check => check.before since) since = recent checks since := by
  have hfront : recent (checks.takeWhile fun check => check.before since) since = 0 := by
    refine List.countP_eq_zero.2 fun check hcheck => ?_
    have hold := List.mem_takeWhile_imp (p := fun check : Instant => check.before since) hcheck
    simp [hold]
  calc recent (checks.dropWhile fun check => check.before since) since
      = recent (checks.takeWhile fun check => check.before since) since
          + recent (checks.dropWhile fun check => check.before since) since := by
        rw [hfront, Nat.zero_add]
    _ = recent checks since := by
        rw [recent, recent, ← List.countP_append, List.takeWhile_append_dropWhile, ← recent]

theorem length_dropWhile_before (checks : List Instant) (since : Instant) :
    (checks.dropWhile fun check => check.before since).length
      = recent checks since + shielded checks since := by
  rw [← recent_dropWhile checks since, shielded, recent, Nat.add_comm,
    List.length_eq_countP_add_countP (fun check => check.before since)]
  simp

/-- No check is shielded when behind a recent one only recent ones were recorded. -/
theorem shielded_eq_zero_iff :
    shielded checks since = 0
      ↔ checks.Pairwise fun a b => b.before since = true → a.before since = true := by
  unfold shielded
  induction checks with
  | nil => simp
  | cons check rest ih =>
    rw [List.pairwise_cons]
    cases hold : check.before since with
    | true => simpa [hold] using ih
    | false =>
      -- the list stays whole, so no check behind this one may be older
      have hrest : (∀ b ∈ rest, b.before since ≠ true) →
          rest.Pairwise fun a b => b.before since = true → a.before since = true :=
        fun hrecent => List.pairwise_of_forall_mem_list fun a _ b hb hbefore =>
          absurd hbefore (hrecent b hb)
      simp only [List.dropWhile_cons, hold, Bool.false_eq_true, if_false, List.countP_eq_zero,
        List.mem_cons, forall_eq_or_imp, not_false_eq_true, true_and, imp_false]
      exact ⟨fun hrecent => ⟨hrecent, hrest hrecent⟩, And.left⟩

/-- Forgetting what lies before an earlier instant first makes no difference. -/
theorem dropWhile_before_of_earlier (hearlier : since.before earlier ≠ true)
    (checks : List Instant) :
    ((checks.dropWhile fun check => check.before earlier).dropWhile fun check => check.before since)
      = checks.dropWhile fun check => check.before since := by
  induction checks with
  | nil => rfl
  | cons check rest ih =>
    by_cases hold : check.before earlier = true
    · have hsince := Instant.before_of_before_of_not_before hold hearlier
      simp [hold, hsince, ih]
    · simp [hold]

/-- What a question forgot makes no difference to one about an instant that is no earlier, whatever was
    recorded in between. -/
theorem dropWhile_before_append (hearlier : since.before earlier ≠ true) (checks later : List Instant) :
    ((checks.dropWhile fun check => check.before earlier) ++ later).dropWhile
        (fun check => check.before since)
      = (checks ++ later).dropWhile fun check => check.before since := by
  rw [List.dropWhile_append, List.dropWhile_append, dropWhile_before_of_earlier hearlier]

/-! ## Runs of calls -/

variable {store : EncounterStore}

theorem recordCheck_eq (hworks : store.down = []) (check : Instant) :
    store.recordCheck check = .ok ((), { store with checks := store.checks ++ [check] }) :=
  IvOffice.guard_eq hworks .recordCheck _

theorem checksSince_eq (hworks : store.down = []) (since : Instant) :
    store.checksSince since
      = .ok (recent store.checks since + shielded store.checks since,
        { store with checks := store.checks.dropWhile fun check => check.before since }) := by
  rw [← length_dropWhile_before]
  exact IvOffice.guard_eq hworks .checksSince _

/-- What a store remembers after calls, as far as a question about an instant shows: every check that
    was recorded, if no call has asked about a later instant. -/
theorem answeredAll_ok (hworks : store.down = []) {calls : List CheckCall}
    (hasked : ∀ earlier, .rate earlier ∈ calls → since.before earlier ≠ true) :
    ∃ after, store.answeredAll calls = .ok after ∧ after.down = []
      ∧ (after.checks.dropWhile fun check => check.before since)
        = (store.checks ++ calls.filterMap CheckCall.recorded?).dropWhile
          fun check => check.before since := by
  induction calls generalizing store with
  | nil => exact ⟨store, rfl, hworks, by simp⟩
  | cons call rest ih =>
    have hrest := fun earlier hmem => hasked earlier (List.mem_cons_of_mem call hmem)
    rw [answeredAll, List.foldlM_cons]
    cases call with
    | record check =>
      let next : EncounterStore := { store with checks := store.checks ++ [check] }
      have hnext : next.down = [] := hworks
      obtain ⟨after, hafter, hdown, hchecks⟩ := ih hnext hrest
      refine ⟨after, ?_, hdown, ?_⟩
      · rw [answered, recordCheck_eq hworks]
        exact hafter
      · rw [hchecks, List.append_assoc]
        rfl
    | rate earlier =>
      let next : EncounterStore :=
        { store with checks := store.checks.dropWhile fun check => check.before earlier }
      have hnext : next.down = [] := hworks
      obtain ⟨after, hafter, hdown, hchecks⟩ := ih hnext hrest
      refine ⟨after, ?_, hdown, ?_⟩
      · rw [answered, checksSince_eq hworks]
        exact hafter
      · rw [hchecks]
        exact dropWhile_before_append (hasked earlier List.mem_cons_self) store.checks _

/-- After calls that have not asked about a later instant, a question counts the recent ones of all
    checks, and the shielded ones. -/
theorem rate_of_asked (hworks : store.down = []) {calls : List CheckCall}
    (hasked : ∀ earlier, .rate earlier ∈ calls → since.before earlier ≠ true) :
    ∃ after left, store.answeredAll calls = .ok after
      ∧ after.checksSince since
        = .ok (recent (store.checks ++ calls.filterMap CheckCall.recorded?) since
          + shielded (store.checks ++ calls.filterMap CheckCall.recorded?) since, left) := by
  obtain ⟨after, hafter, hdown, hchecks⟩ := answeredAll_ok hworks hasked
  have hrate := checksSince_eq hdown since
  rw [← length_dropWhile_before, hchecks, length_dropWhile_before] at hrate
  exact ⟨after, _, hafter, hrate⟩

/-- By a clock that does not go back, every question is answered with the number of checks since. -/
theorem rate_of_forward (hworks : store.down = []) (hnone : store.checks = [])
    {calls : List CheckCall}
    (hasked : ∀ earlier, .rate earlier ∈ calls → since.before earlier ≠ true)
    (hforward : (calls.filterMap CheckCall.recorded?).Pairwise fun a b => b.before a ≠ true) :
    ∃ after left, store.answeredAll calls = .ok after
      ∧ after.checksSince since
        = .ok (recent (calls.filterMap CheckCall.recorded?) since, left) := by
  obtain ⟨after, left, hafter, hrate⟩ := rate_of_asked hworks hasked
  have hclear : shielded (calls.filterMap CheckCall.recorded?) since = 0 :=
    shielded_eq_zero_iff.2 (hforward.imp Instant.before_of_not_before_of_before)
  refine ⟨after, left, hafter, ?_⟩
  rw [hrate, hnone, List.nil_append, hclear, Nat.add_zero]

/-- Of checks recorded in any order, a store that held none answers at least how many were made at or
    after an instant, and just as many exactly when no check from before the instant was recorded
    behind one that was not. -/
theorem rate_exact_iff (queue : EncounterQueue) (checks : List Instant) (since : Instant) :
    ∃ store rate after, ({ queue } : EncounterStore).answeredAll (checks.map .record) = .ok store
      ∧ store.checksSince since = .ok (rate, after)
      ∧ recent checks since ≤ rate
      ∧ (rate = recent checks since
        ↔ checks.Pairwise fun a b => b.before since = true → a.before since = true) := by
  have hrecorded : (checks.map CheckCall.record).filterMap CheckCall.recorded? = checks := by
    rw [List.filterMap_map]
    exact List.filterMap_some
  have hworks : ({ queue } : EncounterStore).down = [] := rfl
  have hasked : ∀ earlier, .rate earlier ∈ checks.map CheckCall.record →
      since.before earlier ≠ true := by simp
  obtain ⟨store, after, hstore, hrate⟩ := rate_of_asked hworks hasked
  rw [hrecorded, List.nil_append] at hrate
  refine ⟨store, _, after, hstore, hrate, Nat.le_add_right _ _, ?_⟩
  rw [← shielded_eq_zero_iff]
  omega

/-- A check at 02:00 and one at 00:00 that is recorded after it, as the clock was set back. -/
def setBack : List Instant := [.ofSeconds 7200, .ofSeconds 0]

/-- Asked for the checks since 01:00, the store counts the one at 00:00 as well. -/
theorem overcounts_setBack :
    ¬ ∀ store rate after, ({} : EncounterStore).answeredAll (setBack.map .record) = .ok store →
      store.checksSince (.ofSeconds 3600) = .ok (rate, after) →
      rate = recent setBack (.ofSeconds 3600) := by
  intro hall
  exact absurd (hall { checks := setBack } 2 _ rfl rfl) (by decide)

end EncounterStore

end ScanFleet
