import ScanFleet.Iv.Clock
import ScanFleet.Proofs.Iv.Queue

set_option autoImplicit false

/-! # The operations of an IV desk

A desk with a store of its own admits sightings, records checks, hands out the next encounter and
forgets everything, in any order and by a clock that may go back. `IvOffice.Outcome` lists what an
operation can come to: its answer and the office afterwards. Everything that is said of runs is read
off from that list, beginning with `IvOffice.Sound`, which every operation keeps. -/

namespace ScanFleet

/-- An instant that a clock shows. -/
structure ClockReading where
  now : Instant
  shown : now.shown = true

/-- What can be asked of a desk. -/
inductive DeskOperation where
  | offer (s : Sighting) (clock : ClockReading)
  | record (s : Sighting) (clock : ClockReading)
  | next (clock : ClockReading)
  | reset

/-- What a desk answers. -/
inductive DeskAnswer where
  | admission (a : Admission)
  | recorded (queued : Bool)
  | handed (s : Option Sighting)
  | done
  deriving DecidableEq

/-- A desk and a store that nobody else uses. -/
structure IvOffice where
  desk : IvDesk
  store : EncounterStore := {}

/-- An area that answers says where the point lies. -/
theorem Area.contains_eq_of_contains? {area : Area} {point : Coordinate} {b : Bool}
    (h : area.contains? point = some b) : b = area.contains point := by
  cases area with
  | points route => exact (Option.some.inj h).symm
  | polygons shapes =>
    rw [contains?] at h
    rw [contains]
    induction shapes with
    | nil => exact (Option.some.inj h).symm
    | cons polygon rest ih =>
      rw [askPolygons?] at h
      rw [List.any_cons]
      split at h
      · cases h
      · split at h
        · rename_i hin
          rw [hin, Bool.true_or, ← Option.some.inj h]
        · rename_i hout
          rw [Bool.eq_false_iff.2 hout, Bool.false_or]
          exact ih h

namespace IvOffice

/-- An office without entries, and without faults. -/
def opened (list : IvList) (area : Area) (limit : Nat) : IvOffice where
  desk := { list, area, limit }

/-- The entries in the order in which they are to be handed out. -/
def queue (o : IvOffice) : EncounterQueue := o.store.queue

/-- Carries out an operation; nothing when the area has no answer. -/
def act (o : IvOffice) : DeskOperation → Option (Except JobError DeskAnswer × IvOffice)
  | .offer s clock =>
    (o.desk.considerByClock? o.store s clock.now).map fun (answer, desk, store) =>
      (answer.map .admission, ⟨desk, store⟩)
  | .record s clock =>
    (o.desk.recordIvByClock? o.store s clock.now).map fun (answer, store) =>
      (answer.map .recorded, { o with store })
  | .next clock =>
    (IvDesk.nextByClock? o.store clock.now).map fun (answer, store) =>
      (answer.map .handed, { o with store })
  | .reset =>
    match o.store.clear with
    | .ok (_, store) => some (.ok .done, { o with store })
    | .error error => some (.error error, o)

/-- The answer to an operation. -/
def answer? (o : IvOffice) (operation : DeskOperation) : Option DeskAnswer :=
  (o.act operation).bind (·.1.toOption)

/-- The office after an operation; one that the area has no answer for changes nothing. -/
def step (o : IvOffice) (operation : DeskOperation) : IvOffice :=
  ((o.act operation).map (·.2)).getD o

/-- The office after a run. -/
def run (o : IvOffice) (operations : List DeskOperation) : IvOffice := operations.foldl step o

/-! ## What an operation comes to -/

/-- The office with another queue. -/
def withQueue (o : IvOffice) (queue : EncounterQueue) : IvOffice :=
  { o with store := { o.store with queue } }

/-- The office after a number was used up. -/
def numbered (o : IvOffice) : IvOffice :=
  { o with desk := { o.desk with sequence := o.desk.sequence + 1 } }

/-- The office after a check was counted. -/
def counted (o : IvOffice) (check : Instant) : IvOffice :=
  { o with store := { o.store with checks := o.store.checks ++ [check] } }

/-- The species is listed with the priority of the entry, the area contains the place, and the
    individual values are not known. -/
structure Takes (o : IvOffice) (entry : QueueEntry) : Prop where
  listed : o.desk.list.rank? entry.sighting.species = some entry.priority
  inside : o.desk.area.contains? entry.sighting.place = some true
  unchecked : entry.sighting.iv = none

/-- The queue once an entry has been placed among those that have not despawned. -/
def joined (o : IvOffice) (entry : QueueEntry) (now : Instant) : EncounterQueue :=
  .place entry (o.queue.unexpired now.seconds)

/-- An answer to a sighting that got as far as the queue. -/
def Reached (answer : Option DeskAnswer) : Prop :=
  ∃ a, answer = some (.admission a) ∧ (a = .queued ∨ a = .duplicate ∨ a = .truncated)

/-- The answers that an operation can have, with the office afterwards. -/
inductive Outcome (o : IvOffice) : DeskOperation → Option DeskAnswer → IvOffice → Prop where
  | turnedAway {s : Sighting} {clock : ClockReading} {answer : Option DeskAnswer}
      (h : ¬ Reached answer) : Outcome o (.offer s clock) answer o
  | doubled {s : Sighting} {clock : ClockReading} :
      Outcome o (.offer s clock) (some (.admission .duplicate))
        (o.withQueue (o.queue.unexpired clock.now.seconds)).numbered
  | entered {s : Sighting} {clock : ClockReading} {entry : QueueEntry} {queue : EncounterQueue}
      (hsighting : entry.sighting = s) (hnumber : entry.sequence = o.desk.sequence)
      (htakes : o.Takes entry)
      (hnew : (o.queue.unexpired clock.now.seconds).holds s.encounter = false)
      (hqueue : queue = (o.joined entry clock.now).take o.desk.limit) :
      Outcome o (.offer s clock)
        (some (.admission (if entry ∈ queue then .queued else .truncated)))
        (o.withQueue queue).numbered
  | passedOver {s : Sighting} {clock : ClockReading} {answer : Option DeskAnswer}
      (h : answer = none ∨ answer = some (.recorded false)) : Outcome o (.record s clock) answer o
  | checked {s : Sighting} {clock : ClockReading} :
      Outcome o (.record s clock) (some (.recorded (o.queue.holds s.encounter)))
        ((o.withQueue (o.queue.remove s.encounter).2).counted clock.now)
  | handed {clock : ClockReading} :
      Outcome o (.next clock)
        (some (.handed ((o.queue.unexpired clock.now.seconds).head?.map (·.sighting))))
        (o.withQueue (o.queue.unexpired clock.now.seconds).tail)
  | forgotten : Outcome o .reset (some .done) { o with store := { o.store with queue := [], checks := [] } }

variable {o : IvOffice}

/-! ## Admissions -/

theorem guard_eq {s : EncounterStore} (h : s.down = []) {α : Type} (operation : StoreOperation)
    (result : α) : s.guard operation result = .ok result := by
  rw [EncounterStore.guard, h, if_neg List.not_mem_nil]

/-- What turns a sighting away is none of the answers from the queue. -/
theorem not_reached_of_screen {d : IvDesk} {s : Sighting} {now : Int} {a : Admission}
    (h : d.screen s now = .error a) : ¬ Reached (some (.admission a)) := by
  have hcases : a = .notListed ∨ a = .alreadyChecked ∨ a = .outsideArea ∨ a = .expired := by
    unfold IvDesk.screen at h
    split at h
    · exact .inl (Except.error.inj h).symm
    · split at h
      · exact .inr (.inl (Except.error.inj h).symm)
      · split at h
        · exact .inr (.inr (.inl (Except.error.inj h).symm))
        · split at h
          · exact .inr (.inr (.inr (Except.error.inj h).symm))
          · cases h
  rintro ⟨b, hb, hreached⟩
  obtain rfl : a = b := by simpa using hb
  rcases hcases with rfl | rfl | rfl | rfl
  all_goals simp at hreached

/-- A sighting that passes the screen is one that the office takes. -/
theorem takes_of_screen {s : Sighting} {now : Int} {rank : Nat} (hasked : o.desk.canScreen s = true)
    (h : o.desk.screen s now = .ok rank) (sequence : Nat) : o.Takes ⟨s, rank, sequence⟩ := by
  unfold IvDesk.screen at h
  split at h
  · cases h
  · rename_i found hrank
    split at h
    · cases h
    · rename_i hiv
      split at h
      · cases h
      · rename_i hinside
        split at h
        · cases h
        · obtain rfl := Except.ok.inj h
          have hiv : s.iv = none := by simpa using hiv
          refine ⟨hrank, ?_, hiv⟩
          have hanswers : (o.desk.area.contains? s.place).isSome = true := by
            simpa [IvDesk.canScreen, hrank, hiv] using hasked
          obtain ⟨b, hb⟩ := Option.isSome_iff_exists.1 hanswers
          have hcontains : o.desk.area.contains s.place = true := by simpa using hinside
          rw [hb, Area.contains_eq_of_contains? hb, hcontains]

/-- Settling the queue keeps as many entries as the limit allows, and tells whether an entry is among
    them that is queued for its encounter alone. -/
theorem settle_eq {d : IvDesk} {store : EncounterStore} {entry : QueueEntry}
    (h : store.down = []) (hin : entry ∈ store.queue)
    (halone : ∀ e ∈ store.queue, e.sighting.encounter = entry.sighting.encounter → e = entry) :
    d.settle entry.sighting.encounter store
      = (.ok (if entry ∈ store.queue.take d.limit then .queued else .truncated),
        { store with queue := store.queue.take d.limit }) := by
  unfold IvDesk.settle EncounterStore.truncate EncounterQueue.truncate
  dsimp only
  rw [guard_eq h]
  dsimp only
  split
  · rename_i hdropped
    have hall : store.queue.take d.limit = store.queue := List.take_of_length_le (by omega)
    rw [hall, if_pos hin]
  · rw [EncounterStore.snapshot, guard_eq (by exact h)]
    have hholds : EncounterQueue.holds (store.queue.take d.limit) entry.sighting.encounter = true
        ↔ entry ∈ store.queue.take d.limit := by
      rw [EncounterQueue.holds_eq_true_iff]
      constructor
      · rintro ⟨e, he, hsame⟩
        rwa [halone e (List.mem_of_mem_take he) hsame] at he
      · exact fun he => ⟨entry, he, rfl⟩
    simp only [hholds]

theorem consider_of_rank {d : IvDesk} {store : EncounterStore} {s : Sighting} {now : Instant}
    {rank : Nat} (h : store.down = []) (hscreen : d.screen s now.seconds = .ok rank) :
    d.consider store s now
      = d.enqueue { store with queue := store.queue.unexpired now.seconds } s rank := by
  unfold IvDesk.consider
  rw [hscreen]
  unfold EncounterStore.removeExpired EncounterQueue.removeExpired
  dsimp only
  rw [guard_eq h]

theorem enqueue_of_held {d : IvDesk} {store : EncounterStore} {s : Sighting} {rank : Nat}
    (h : store.down = []) (hheld : store.queue.holds s.encounter = true) :
    d.enqueue store s rank = (.ok .duplicate, { d with sequence := d.sequence + 1 }, store) := by
  unfold IvDesk.enqueue EncounterStore.insert EncounterQueue.insert
  dsimp only
  rw [guard_eq h, hheld, if_pos rfl]

theorem enqueue_of_new {d : IvDesk} {store : EncounterStore} {s : Sighting} {rank : Nat}
    (h : store.down = []) (hnew : store.queue.holds s.encounter = false) :
    let entry : QueueEntry := ⟨s, rank, d.sequence⟩
    let kept := (EncounterQueue.place entry store.queue).take d.limit
    d.enqueue store s rank
      = (.ok (if entry ∈ kept then .queued else .truncated), { d with sequence := d.sequence + 1 },
        { store with queue := kept }) := by
  intro entry kept
  have hin : entry ∈ EncounterQueue.place entry store.queue :=
    EncounterQueue.mem_place.2 (.inl rfl)
  have halone : ∀ e ∈ EncounterQueue.place entry store.queue,
      e.sighting.encounter = entry.sighting.encounter → e = entry := by
    intro e he hsame
    rcases EncounterQueue.mem_place.1 he with heq | he
    · exact heq
    · rw [EncounterQueue.holds_eq_true_iff.2 ⟨e, he, hsame⟩] at hnew
      cases hnew
  unfold IvDesk.enqueue EncounterStore.insert EncounterQueue.insert
  dsimp only
  rw [guard_eq h, hnew, if_neg Bool.false_ne_true]
  dsimp only
  have hsettle : d.settle entry.sighting.encounter
      { store with queue := EncounterQueue.place entry store.queue } = _ := settle_eq h hin halone
  rw [hsettle]

theorem outcome_of_act {operation : DeskOperation} {answer : DeskAnswer} {after : IvOffice}
    (hact : o.act operation = some (.ok answer, after))
    (h : o.Outcome operation (some answer) after) :
    o.Outcome operation (o.answer? operation) (o.step operation) := by
  unfold answer? step
  rw [hact]
  exact h

/-- A sighting that can be screened is considered. -/
theorem act_offer {s : Sighting} (hasked : o.desk.canScreen s = true) (clock : ClockReading) :
    o.act (.offer s clock)
      = some (((o.desk.consider o.store s clock.now).1).map .admission,
        ⟨(o.desk.consider o.store s clock.now).2.1,
          (o.desk.consider o.store s clock.now).2.2⟩) := by
  rw [act, IvDesk.considerByClock?, hasked, if_pos rfl, Instant.byClock_of_shown clock.shown]
  rfl

/-- What an admission comes to. -/
theorem outcome_offer (h : o.store.down = []) (s : Sighting) (clock : ClockReading) :
    o.Outcome (.offer s clock) (o.answer? (.offer s clock)) (o.step (.offer s clock)) := by
  cases hasked : o.desk.canScreen s with
  | false =>
    have hact : o.act (.offer s clock) = none := by
      rw [act, IvDesk.considerByClock?, hasked]
      rfl
    unfold answer? step
    rw [hact]
    exact .turnedAway fun ⟨a, ha, _⟩ => by cases ha
  | true =>
    have hact := act_offer hasked clock
    cases hscreen : o.desk.screen s clock.now.seconds with
    | error a =>
      rw [IvDesk.consider, hscreen] at hact
      exact outcome_of_act hact (.turnedAway (not_reached_of_screen hscreen))
    | ok rank =>
      rw [consider_of_rank h hscreen] at hact
      cases hholds : (o.queue.unexpired clock.now.seconds).holds s.encounter with
      | true =>
        rw [enqueue_of_held (by exact h) hholds] at hact
        exact outcome_of_act hact .doubled
      | false =>
        rw [enqueue_of_new (by exact h) hholds] at hact
        exact outcome_of_act hact
          (.entered rfl rfl (takes_of_screen hasked hscreen _) hholds rfl)

/-! ## Other operations -/

/-- A check is recorded when the area says where it was made. -/
theorem act_record {s : Sighting} (hasked : (o.desk.area.contains? s.place).isSome = true)
    (clock : ClockReading) :
    o.act (.record s clock)
      = some ((o.desk.recordIv o.store s clock.now).1.map .recorded,
        { o with store := (o.desk.recordIv o.store s clock.now).2 }) := by
  rw [act, IvDesk.recordIvByClock?, hasked, if_pos rfl, Instant.byClock_of_shown clock.shown]
  rfl

theorem act_next (clock : ClockReading) :
    o.act (.next clock)
      = some ((IvDesk.next o.store clock.now).1.map .handed,
        { o with store := (IvDesk.next o.store clock.now).2 }) := by
  rw [act, IvDesk.nextByClock?, Instant.byClock_of_shown clock.shown]
  rfl

theorem recordIv_of_inside {d : IvDesk} {store : EncounterStore} {s : Sighting} {now : Instant}
    (h : store.down = []) (hinside : d.area.contains s.place = true) :
    d.recordIv store s now
      = (.ok (store.queue.holds s.encounter),
        { store with
          queue := (store.queue.remove s.encounter).2
          checks := store.checks ++ [now] }) := by
  have hheld : (store.queue.remove s.encounter).1.isSome = store.queue.holds s.encounter :=
    List.isSome_find?
  unfold IvDesk.recordIv EncounterStore.remove EncounterStore.recordCheck
  rw [hinside, Bool.not_true, if_neg Bool.false_ne_true]
  dsimp only
  rw [guard_eq h]
  dsimp only
  rw [guard_eq (by exact h), hheld]

theorem next_eq {store : EncounterStore} {now : Instant} (h : store.down = []) :
    IvDesk.next store now
      = (.ok ((store.queue.unexpired now.seconds).head?.map (·.sighting)),
        { store with queue := (store.queue.unexpired now.seconds).tail }) := by
  unfold IvDesk.next EncounterStore.removeExpired EncounterQueue.removeExpired
    EncounterStore.popFront
  dsimp only
  rw [guard_eq h]
  dsimp only
  rw [guard_eq (by exact h)]
  cases store.queue.unexpired now.seconds with
  | nil => rfl
  | cons first rest => rfl

theorem outcome_record (h : o.store.down = []) (s : Sighting) (clock : ClockReading) :
    o.Outcome (.record s clock) (o.answer? (.record s clock)) (o.step (.record s clock)) := by
  cases hplace : o.desk.area.contains? s.place with
  | none =>
    have hact : o.act (.record s clock) = none := by
      rw [act, IvDesk.recordIvByClock?, hplace]
      rfl
    unfold answer? step
    rw [hact]
    exact .passedOver (.inl rfl)
  | some inside =>
    have hact := act_record (hplace ▸ Option.isSome_some) clock
    cases hinside : o.desk.area.contains s.place with
    | false =>
      rw [IvDesk.recordIv, hinside] at hact
      exact outcome_of_act hact (.passedOver (.inr rfl))
    | true =>
      rw [recordIv_of_inside h hinside] at hact
      exact outcome_of_act hact .checked

theorem outcome_next (h : o.store.down = []) (clock : ClockReading) :
    o.Outcome (.next clock) (o.answer? (.next clock)) (o.step (.next clock)) := by
  have hact := act_next (o := o) clock
  rw [next_eq h] at hact
  exact outcome_of_act hact .handed

/-- Without faults, every operation comes to one of the listed outcomes. -/
theorem outcome (h : o.store.down = []) (operation : DeskOperation) :
    o.Outcome operation (o.answer? operation) (o.step operation) := by
  cases operation with
  | offer s clock => exact outcome_offer h s clock
  | record s clock => exact outcome_record h s clock
  | next clock => exact outcome_next h clock
  | reset =>
    refine outcome_of_act ?_ .forgotten
    rw [act, EncounterStore.clear, guard_eq h]

/-! ## What every operation keeps -/

/-- The queue is short enough, holds no encounter twice and stands in order; the office took every
    entry of it, and gave it a number. -/
structure Sound (o : IvOffice) : Prop where
  works : o.store.down = []
  bounded : o.queue.length ≤ o.desk.limit
  distinct : o.queue.Distinct
  ordered : o.queue.Pairwise QueueEntry.Before
  taken : ∀ e ∈ o.queue, o.Takes e
  numbered : ∀ e ∈ o.queue, e.sequence < o.desk.sequence

theorem sound_opened (list : IvList) (area : Area) (limit : Nat) : (opened list area limit).Sound where
  works := rfl
  bounded := Nat.zero_le limit
  distinct := .nil
  ordered := .nil
  taken := by
    intro e he
    cases he
  numbered := by
    intro e he
    cases he

/-- A queue stays sound when entries are taken out. -/
theorem Sound.of_sublist (h : o.Sound) {after : IvOffice} (hworks : after.store.down = [])
    (hdesk : after.desk = o.desk) (hqueue : List.Sublist after.queue o.queue) : after.Sound where
  works := hworks
  bounded := hdesk ▸ Nat.le_trans hqueue.length_le h.bounded
  distinct := h.distinct.sublist hqueue
  ordered := h.ordered.sublist hqueue
  taken e he := by
    obtain ⟨hlisted, hinside, hunchecked⟩ := h.taken e (hqueue.subset he)
    exact ⟨hdesk ▸ hlisted, hdesk ▸ hinside, hunchecked⟩
  numbered e he := hdesk ▸ h.numbered e (hqueue.subset he)

theorem Sound.use_number (h : o.Sound) : (IvOffice.numbered o).Sound where
  works := h.works
  bounded := h.bounded
  distinct := h.distinct
  ordered := h.ordered
  taken e he := by
    obtain ⟨hlisted, hinside, hunchecked⟩ := h.taken e he
    exact ⟨hlisted, hinside, hunchecked⟩
  numbered e he := Nat.lt_succ_of_lt (h.numbered e he)

theorem Sound.unexpired (h : o.Sound) (now : Instant) :
    (o.withQueue (o.queue.unexpired now.seconds)).Sound :=
  h.of_sublist h.works rfl (EncounterQueue.unexpired_sublist _ _)

/-- The new entry is the last of its rank, so that it may be placed where it is. -/
theorem Sound.joined_ordered (h : o.Sound) {entry : QueueEntry} {now : Instant}
    (hnumber : entry.sequence = o.desk.sequence) :
    (o.joined entry now).Pairwise QueueEntry.Before := by
  have hkept := h.unexpired now
  refine EncounterQueue.ordered_place hkept.ordered fun e he => ?_
  rw [hnumber]
  exact hkept.numbered e he

theorem Sound.joined_distinct (h : o.Sound) {entry : QueueEntry} {now : Instant}
    (hnew : (o.queue.unexpired now.seconds).holds entry.sighting.encounter = false) :
    (o.joined entry now).Distinct :=
  (h.unexpired now).distinct.place hnew

theorem Sound.step (h : o.Sound) (operation : DeskOperation) : (o.step operation).Sound := by
  have houtcome := outcome h.works operation
  generalize o.step operation = after at houtcome ⊢
  generalize o.answer? operation = answer at houtcome
  cases houtcome with
  | turnedAway => exact h
  | doubled => exact (h.unexpired _).use_number
  | entered hsighting hnumber htakes hnew hqueue =>
    subst hsighting hqueue
    exact {
      works := h.works
      bounded := List.length_take_le _ _
      distinct := (h.joined_distinct hnew).sublist (List.take_sublist _ _)
      ordered := (h.joined_ordered hnumber).sublist (List.take_sublist _ _)
      taken := by
        intro e he
        rcases EncounterQueue.mem_place.1 (List.mem_of_mem_take he) with rfl | he
        · exact ⟨htakes.listed, htakes.inside, htakes.unchecked⟩
        · have hold := h.taken e (EncounterQueue.mem_unexpired.1 he).1
          exact ⟨hold.listed, hold.inside, hold.unchecked⟩
      numbered := by
        intro e he
        rcases EncounterQueue.mem_place.1 (List.mem_of_mem_take he) with rfl | he
        · exact Nat.lt_succ_of_le (Nat.le_of_eq hnumber)
        · exact Nat.lt_succ_of_lt (h.numbered e (EncounterQueue.mem_unexpired.1 he).1) }
  | passedOver => exact h
  | checked => exact h.of_sublist h.works rfl List.eraseP_sublist
  | handed => exact (h.unexpired _).of_sublist h.works rfl (List.tail_sublist _)
  | forgotten => exact h.of_sublist h.works rfl (List.nil_sublist _)

theorem Sound.run (h : o.Sound) (operations : List DeskOperation) : (o.run operations).Sound := by
  induction operations generalizing o with
  | nil => exact h
  | cons operation rest ih => exact ih (h.step operation)

end IvOffice

end ScanFleet
