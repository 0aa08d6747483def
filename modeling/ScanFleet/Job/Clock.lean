import ScanFleet.Iv.Clock
import ScanFleet.Job.Basic

set_option autoImplicit false

/-! # Jobs by the clock

Quest jobs and jobs with an encounter queue need the clock for some of what they do. While it shows
nothing, that cannot be done; everything else goes on as at any other time, since it comes out the
same whatever the instant. -/

namespace ScanFleet

namespace Job

/-- Whether telling the status needs the clock: the local hour is in it, or the checks of the last hour.
    -/
def statusNeedsClock (j : Job) : Bool :=
  !j.broken && !j.stopped &&
    match j.duty with
    | .quests _ | .encounters _ _ => true
    | _ => false

/-- Whether handing out a task needs the clock. A quest job asks for the time first of all. -/
def taskNeedsClock (j : Job) : Bool :=
  match j.duty with
  | .quests _ => true
  | .encounters _ _ => !j.broken && !j.stopped
  | _ => false

/-- Whether admitting a sighting needs the clock. -/
def sightingNeedsClock (j : Job) (s : Sighting) : Bool :=
  match j.duty with
  | .encounters desk _ => desk.eligible s
  | _ => false

/-- Whether recording a checked encounter needs the clock. -/
def ivNeedsClock (j : Job) (s : Sighting) : Bool :=
  match j.duty with
  | .encounters desk store => desk.counts store s
  | _ => false

theorem status_eq_of_not_needsClock {j : Job} (h : j.statusNeedsClock = false) (a b : Instant) :
    j.status a = j.status b := by
  rw [statusNeedsClock] at h
  rw [status, status]
  cases hb : j.broken with
  | true => rfl
  | false =>
    cases hs : j.stopped with
    | true => rfl
    | false =>
      cases hd : j.duty with
      | circle => rfl
      | spawnpoints => rfl
      | bootstrap state => rfl
      | quests state => simp [hb, hs, hd] at h
      | encounters desk store => simp [hb, hs, hd] at h

theorem handOut_eq_of_not_needsClock {j : Job} (h : j.taskNeedsClock = false)
    (account : Option String) (a b : Instant) : j.handOut account a = j.handOut account b := by
  rw [taskNeedsClock] at h
  rw [handOut, handOut]
  split
  · rfl
  · rename_i hidle
    cases hd : j.duty with
    | circle => rfl
    | spawnpoints => rfl
    | bootstrap state => rfl
    | quests state => simp [hd] at h
    | encounters desk store =>
      rw [hd] at h
      simp_all

/-! ## By the clock -/

/-- The status by the clock. -/
def statusByClock? (j : Job) (clock : Instant) : Option (String × Job) :=
  clock.byClock j.statusNeedsClock (j.status clock)

/-- The hour of the local day of a quest job, by the clock; nothing for other jobs. -/
def hourByClock? (j : Job) (clock : Instant) : Option Nat :=
  match j.duty with
  | .quests state => clock.byClock true (clock.localHour state.offset)
  | _ => none

/-- What a device gets that checks in by the clock; nothing when the clock shows nothing that the job
    needs, which leaves the job as it was, or when the clock leaves the calendar of a quest job. -/
def checkIn (j : Job) (account : Option String) (clock : Instant) : Option Handout × Job :=
  if j.taskNeedsClock && !clock.shown then (none, j) else j.handOut account clock

/-- Offers a sighting by the clock. -/
def addSightingByClock? (j : Job) (s : Sighting) (clock : Instant) : Option Job :=
  match j.duty with
  | .encounters desk store =>
    (desk.offerByClock? store s clock).map fun (desk, store) =>
      { j with duty := .encounters desk store }
  | _ => some j

/-- Reports a checked encounter by the clock. -/
def addIvByClock? (j : Job) (s : Sighting) (clock : Instant) : Option Job :=
  match j.duty with
  | .encounters desk store =>
    (desk.noteByClock? store s clock).map fun store => { j with duty := .encounters desk store }
  | _ => some j

end Job

end ScanFleet
