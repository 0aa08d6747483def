import ScanFleet.Proofs.Iv.Operations

set_option autoImplicit false

/-! # What a failing store leaves of the queue

An operation of a desk asks the store several times, and stops at the first operation of the store
that is down. Nothing that the store has done by then is taken back. `IvOffice.Fault` lists where an
operation of the desk can stop, with the queue that it leaves there.

Three of these places lie behind a change that the desk had yet to complete (`IvOffice.Torn`): a
queue that was not cut after the new entry joined it, one that was cut for an entry whose fate could
not be asked, and one that lost an encounter whose check could not be counted. Everywhere else the
entries that have not despawned are those of before (`IvOffice.Intact`). -/

namespace ScanFleet

namespace EncounterStore

theorem guard_eq_error_iff {α : Type} {store : EncounterStore} {operation : StoreOperation}
    {result : α} {error : JobError} :
    store.guard operation result = .error error
      ↔ operation ∈ store.down ∧ .poisoned "IV queue" = error := by
  rw [guard]
  split <;> simp [*]

theorem guard_eq_ok_iff {α : Type} {store : EncounterStore} {operation : StoreOperation}
    {result answer : α} :
    store.guard operation result = .ok answer ↔ operation ∉ store.down ∧ result = answer := by
  rw [guard]
  split <;> simp [*]

end EncounterStore

namespace EncounterQueue

variable {queue : EncounterQueue} {entry : QueueEntry}

/-- In front of an entry that is cut off again stands what stood there without it. -/
theorem take_place_of_not_mem {n : Nat} (h : entry ∉ (place entry queue).take n) :
    (place entry queue).take n = queue.take n := by
  induction queue generalizing n with
  | nil =>
    cases n with
    | zero => rfl
    | succ n => simp [place] at h
  | cons first rest ih =>
    cases n with
    | zero => rfl
    | succ n =>
      rw [place] at h ⊢
      split
      · rename_i hle
        rw [if_pos hle, List.take_succ_cons, List.mem_cons, not_or] at h
        rw [List.take_succ_cons, List.take_succ_cons, ih h.2]
      · rename_i hle
        rw [if_neg hle, List.take_succ_cons] at h
        exact absurd List.mem_cons_self h

/-- Taking out an encounter leaves the queue as it was only when it is not there. -/
theorem remove_snd_eq_self_iff {encounter : String} :
    (queue.remove encounter).2 = queue ↔ queue.holds encounter = false := by
  rw [← Bool.not_eq_true, holds_eq_true_iff]
  constructor
  · -- the queue gets shorter when an entry is taken out
    rintro hsame ⟨e, he, hencounter⟩
    have hshorter : (queue.remove encounter).2.length = queue.length - 1 :=
      List.length_eraseP_of_mem he (by simpa using hencounter)
    have hpos : 0 < queue.length := List.length_pos_of_mem he
    rw [hsame] at hshorter
    omega
  · intro habsent
    refine List.eraseP_of_forall_not fun e he hencounter => habsent ⟨e, he, ?_⟩
    exact beq_iff_eq.1 hencounter

end EncounterQueue

/-- What an operation of a desk asks of the store, in the order in which it asks. -/
def DeskOperation.asks : DeskOperation → List StoreOperation
  | .offer .. => [.removeExpired, .insert, .truncate, .snapshot]
  | .record .. => [.remove, .recordCheck]
  | .next _ => [.removeExpired, .popFront]
  | .reset => [.clear]

namespace IvOffice

/-! ## Where an operation stops -/

/-- The operation of the store at which an operation of the desk stops. -/
def stopsAt? (o : IvOffice) (operation : DeskOperation) : Option StoreOperation :=
  operation.asks.find? (· ∈ o.store.down)

/-- An entry as the desk makes it for a sighting that joins the queue. -/
structure Joins (o : IvOffice) (s : Sighting) (now : Instant) (entry : QueueEntry) : Prop where
  sighting : entry.sighting = s
  sequence : entry.sequence = o.desk.sequence
  takes : o.Takes entry
  fresh : s.expired now.seconds = false
  new : (o.queue.unexpired now.seconds).holds s.encounter = false

/-- Where an operation of the desk can stop, and the queue that it leaves there. -/
inductive Fault (o : IvOffice) : DeskOperation → StoreOperation → EncounterQueue → Prop where
  | expiring {s : Sighting} {clock : ClockReading} : Fault o (.offer s clock) .removeExpired o.queue
  | inserting {s : Sighting} {clock : ClockReading} :
      Fault o (.offer s clock) .insert (o.queue.unexpired clock.now.seconds)
  | cutting {s : Sighting} {clock : ClockReading} {entry : QueueEntry}
      (hjoins : o.Joins s clock.now entry) :
      Fault o (.offer s clock) .truncate (o.joined entry clock.now)
  | looking {s : Sighting} {clock : ClockReading} {entry : QueueEntry}
      (hjoins : o.Joins s clock.now entry)
      (hlong : o.desk.limit < (o.joined entry clock.now).length) :
      Fault o (.offer s clock) .snapshot ((o.joined entry clock.now).take o.desk.limit)
  | taking {s : Sighting} {clock : ClockReading} : Fault o (.record s clock) .remove o.queue
  | counting {s : Sighting} {clock : ClockReading} :
      Fault o (.record s clock) .recordCheck (o.queue.remove s.encounter).2
  | clearing {clock : ClockReading} : Fault o (.next clock) .removeExpired o.queue
  | handing {clock : ClockReading} :
      Fault o (.next clock) .popFront (o.queue.unexpired clock.now.seconds)
  | forgetting : Fault o .reset .clear o.queue

/-- The store stopped an operation: the error is its own, and it has changed in nothing but the
    queue. -/
structure Stopped (o : IvOffice) (operation : DeskOperation) (stage : StoreOperation)
    (error : JobError) (after : EncounterStore) : Prop where
  first : o.stopsAt? operation = some stage
  poisoned : .poisoned "IV queue" = error
  left : o.Fault operation stage after.queue
  rest : after = { o.store with queue := after.queue }

variable {o : IvOffice} {error : JobError}

/-- What passes the screen has not despawned. -/
theorem fresh_of_screen {d : IvDesk} {s : Sighting} {now : Int} {rank : Nat}
    (h : d.screen s now = .ok rank) : s.expired now = false := by
  unfold IvDesk.screen at h
  split at h
  · cases h
  · split at h
    · cases h
    · split at h
      · cases h
      · split at h
        · cases h
        · simpa using ‹¬ s.expired now = true›

/-- The queue was cut, or not, when settling it fails. -/
theorem settle_error {d : IvDesk} {store after : EncounterStore} {encounter : String}
    (h : d.settle encounter store = (.error error, after)) :
    .poisoned "IV queue" = error
      ∧ (.truncate ∈ store.down ∧ after = store
        ∨ .truncate ∉ store.down ∧ .snapshot ∈ store.down ∧ d.limit < store.queue.length
          ∧ after = { store with queue := store.queue.take d.limit }) := by
  unfold IvDesk.settle EncounterStore.truncate EncounterQueue.truncate EncounterStore.snapshot at h
  dsimp only at h
  split at h
  · rename_i hcut
    obtain ⟨hdown, hpoisoned⟩ := EncounterStore.guard_eq_error_iff.1 hcut
    cases h
    exact ⟨hpoisoned, .inl ⟨hdown, rfl⟩⟩
  · rename_i dropped cut hcut
    obtain ⟨hworks, hdropped⟩ := EncounterStore.guard_eq_ok_iff.1 hcut
    cases hdropped
    split at h
    · cases h
    · rename_i hsome
      split at h
      · rename_i hlook
        obtain ⟨hdown, hpoisoned⟩ := EncounterStore.guard_eq_error_iff.1 hlook
        cases h
        exact ⟨hpoisoned, .inr ⟨hworks, hdown, by omega, rfl⟩⟩
      · cases h

/-- The entry was put in, or not, when a sighting cannot be queued. -/
theorem enqueue_error {d desk : IvDesk} {store after : EncounterStore} {s : Sighting} {rank : Nat}
    (h : d.enqueue store s rank = (.error error, desk, after)) :
    .insert ∈ store.down ∧ .poisoned "IV queue" = error ∧ after = store
      ∨ .insert ∉ store.down ∧ store.queue.holds s.encounter = false
        ∧ d.settle s.encounter
            { store with queue := EncounterQueue.place ⟨s, rank, d.sequence⟩ store.queue }
          = (.error error, after) := by
  unfold IvDesk.enqueue EncounterStore.insert EncounterQueue.insert at h
  dsimp only at h
  split at h
  · rename_i hinsert
    obtain ⟨hdown, hpoisoned⟩ := EncounterStore.guard_eq_error_iff.1 hinsert
    cases h
    exact .inl ⟨hdown, hpoisoned, rfl⟩
  · cases h
  · rename_i hinsert
    obtain ⟨hworks, hinserted⟩ := EncounterStore.guard_eq_ok_iff.1 hinsert
    split at hinserted
    · cases hinserted
    · rename_i hnew
      cases hinserted
      obtain ⟨hanswer, hrest⟩ := Prod.mk.inj h
      exact .inr ⟨hworks, Bool.eq_false_iff.2 hnew, Prod.ext hanswer (Prod.mk.inj hrest).2⟩

/-- An admission fails in the store, once the sighting has passed the screen. -/
theorem stopped_of_consider {s : Sighting} {clock : ClockReading} {desk : IvDesk}
    {after : EncounterStore} (hasked : o.desk.canScreen s = true)
    (h : o.desk.consider o.store s clock.now = (.error error, desk, after)) :
    ∃ stage, o.Stopped (.offer s clock) stage error after := by
  unfold IvDesk.consider EncounterStore.removeExpired EncounterQueue.removeExpired at h
  dsimp only at h
  split at h
  · cases h
  · rename_i rank hscreen
    split at h
    · rename_i hexpire
      obtain ⟨hdown, hpoisoned⟩ := EncounterStore.guard_eq_error_iff.1 hexpire
      cases h
      exact ⟨.removeExpired, by simp [stopsAt?, DeskOperation.asks, hdown], hpoisoned,
        .expiring, rfl⟩
    · rename_i hexpire
      obtain ⟨hexpires, hstore⟩ := EncounterStore.guard_eq_ok_iff.1 hexpire
      cases hstore
      -- from here on the store no longer holds what had despawned
      rcases enqueue_error h with ⟨hdown, hpoisoned, rfl⟩ | ⟨hinserts, hnew, hsettle⟩
      · exact ⟨.insert, by simp [stopsAt?, DeskOperation.asks, hexpires, hdown], hpoisoned,
          .inserting, rfl⟩
      · have hjoins : o.Joins s clock.now ⟨s, rank, o.desk.sequence⟩ :=
          ⟨rfl, rfl, takes_of_screen hasked hscreen _, fresh_of_screen hscreen, hnew⟩
        obtain ⟨hpoisoned, ⟨hdown, rfl⟩ | ⟨hcuts, hdown, hlong, rfl⟩⟩ := settle_error hsettle
        · exact ⟨.truncate, by simp [stopsAt?, DeskOperation.asks, hexpires, hinserts, hdown],
            hpoisoned, .cutting hjoins, rfl⟩
        · exact ⟨.snapshot,
            by simp [stopsAt?, DeskOperation.asks, hexpires, hinserts, hcuts, hdown],
            hpoisoned, .looking hjoins hlong, rfl⟩

theorem stopped_of_recordIv {s : Sighting} {clock : ClockReading} {after : EncounterStore}
    (h : o.desk.recordIv o.store s clock.now = (.error error, after)) :
    ∃ stage, o.Stopped (.record s clock) stage error after := by
  unfold IvDesk.recordIv EncounterStore.remove EncounterStore.recordCheck at h
  dsimp only at h
  split at h
  · cases h
  · split at h
    · rename_i htake
      obtain ⟨hdown, hpoisoned⟩ := EncounterStore.guard_eq_error_iff.1 htake
      cases h
      exact ⟨.remove, by simp [stopsAt?, DeskOperation.asks, hdown], hpoisoned, .taking, rfl⟩
    · rename_i htake
      obtain ⟨htakes, hstore⟩ := EncounterStore.guard_eq_ok_iff.1 htake
      cases hstore
      split at h
      · rename_i hcount
        obtain ⟨hdown, hpoisoned⟩ := EncounterStore.guard_eq_error_iff.1 hcount
        cases h
        exact ⟨.recordCheck, by simp [stopsAt?, DeskOperation.asks, htakes, hdown], hpoisoned,
          .counting, rfl⟩
      · cases h

theorem stopped_of_next {clock : ClockReading} {after : EncounterStore}
    (h : IvDesk.next o.store clock.now = (.error error, after)) :
    ∃ stage, o.Stopped (.next clock) stage error after := by
  unfold IvDesk.next EncounterStore.removeExpired EncounterQueue.removeExpired
    EncounterStore.popFront at h
  dsimp only at h
  split at h
  · rename_i hexpire
    obtain ⟨hdown, hpoisoned⟩ := EncounterStore.guard_eq_error_iff.1 hexpire
    cases h
    exact ⟨.removeExpired, by simp [stopsAt?, DeskOperation.asks, hdown], hpoisoned, .clearing, rfl⟩
  · rename_i hexpire
    obtain ⟨hexpires, hstore⟩ := EncounterStore.guard_eq_ok_iff.1 hexpire
    cases hstore
    split at h
    · rename_i hpop
      obtain ⟨hdown, hpoisoned⟩ := EncounterStore.guard_eq_error_iff.1 hpop
      cases h
      exact ⟨.popFront, by simp [stopsAt?, DeskOperation.asks, hexpires, hdown], hpoisoned,
        .handing, rfl⟩
    · cases h

theorem error_of_map {α β : Type} {f : α → β} {answer : Except JobError α}
    (h : answer.map f = .error error) : answer = .error error := by
  cases answer with
  | error reason => exact congrArg _ (Except.error.inj h)
  | ok value => cases h

/-- An operation that answers an error was stopped by the store. -/
theorem stopped_of_act {operation : DeskOperation} {after : IvOffice}
    (h : o.act operation = some (.error error, after)) :
    ∃ stage, o.Stopped operation stage error after.store := by
  cases operation with
  | offer s clock =>
    cases hasked : o.desk.canScreen s with
    | false =>
      rw [act, IvDesk.considerByClock?, hasked] at h
      cases h
    | true =>
      rw [act_offer hasked] at h
      obtain ⟨hanswer, rfl⟩ := Prod.mk.inj (Option.some.inj h)
      exact stopped_of_consider hasked (Prod.ext (error_of_map hanswer) rfl)
  | record s clock =>
    cases hasked : (o.desk.area.contains? s.place).isSome with
    | false =>
      rw [act, IvDesk.recordIvByClock?, hasked] at h
      cases h
    | true =>
      rw [act_record hasked] at h
      obtain ⟨hanswer, rfl⟩ := Prod.mk.inj (Option.some.inj h)
      exact stopped_of_recordIv (Prod.ext (error_of_map hanswer) rfl)
  | next clock =>
    rw [act_next] at h
    obtain ⟨hanswer, rfl⟩ := Prod.mk.inj (Option.some.inj h)
    exact stopped_of_next (Prod.ext (error_of_map hanswer) rfl)
  | reset =>
    rw [act] at h
    split at h
    · cases h
    · rename_i hclear
      obtain ⟨hdown, hpoisoned⟩ := EncounterStore.guard_eq_error_iff.1 hclear
      cases h
      exact ⟨.clear, by simp [stopsAt?, DeskOperation.asks, hdown], hpoisoned, .forgetting, rfl⟩

/-! ## What is left -/

/-- The queue is the one of before; what had despawned may be gone, unless a check was to be
    recorded. -/
def Intact (o : IvOffice) : DeskOperation → EncounterQueue → Prop
  | .offer _ clock, queue | .next clock, queue =>
    queue = o.queue ∨ queue = o.queue.unexpired clock.now.seconds
  | .record .., queue | .reset, queue => queue = o.queue

/-- The places where an operation stops in the middle of a change of the queue. -/
inductive Torn (o : IvOffice) : DeskOperation → StoreOperation → Prop where
  /-- The new entry is in, and nothing was cut off. -/
  | uncut {s : Sighting} {clock : ClockReading} : Torn o (.offer s clock) .truncate
  /-- The new entry is in, and the last entry of a full queue was cut off for it. -/
  | cut {s : Sighting} {clock : ClockReading} {entry : QueueEntry}
      (hjoins : o.Joins s clock.now entry)
      (hstays : entry ∈ (o.joined entry clock.now).take o.desk.limit) :
      Torn o (.offer s clock) .snapshot
  /-- The encounter is out, and its check does not count. -/
  | uncounted {s : Sighting} {clock : ClockReading} (hheld : o.queue.holds s.encounter = true) :
      Torn o (.record s clock) .recordCheck

/-- There is one entry for a sighting that joins. -/
theorem Joins.eq {s : Sighting} {now : Instant} {entry other : QueueEntry}
    (h : o.Joins s now entry) (hother : o.Joins s now other) : other = entry := by
  obtain ⟨sighting, priority, sequence⟩ := entry
  obtain ⟨sighting', priority', sequence'⟩ := other
  obtain rfl : sighting = s := h.sighting
  obtain rfl : sighting' = sighting := hother.sighting
  obtain rfl : sequence = o.desk.sequence := h.sequence
  obtain rfl : sequence' = o.desk.sequence := hother.sequence
  obtain rfl : priority' = priority :=
    Option.some.inj (hother.takes.listed.symm.trans h.takes.listed)
  rfl

/-- An entry that joins is none of those that wait. -/
theorem Joins.not_mem {s : Sighting} {now : Instant} {entry : QueueEntry}
    (h : o.Joins s now entry) : entry ∉ o.queue.unexpired now.seconds := by
  intro hin
  have hnew := h.new
  rw [EncounterQueue.holds_eq_true_iff.2 ⟨entry, hin, congrArg _ h.sighting⟩] at hnew
  cases hnew

/-- A queue with an entry that joins is another than before. -/
theorem Joins.not_intact {s : Sighting} {clock : ClockReading} {entry : QueueEntry}
    (h : o.Joins s clock.now entry) {queue : EncounterQueue} (hin : entry ∈ queue) :
    ¬ o.Intact (.offer s clock) queue := by
  rintro (rfl | rfl)
  · exact h.not_mem (EncounterQueue.mem_unexpired.2 ⟨hin, h.sighting ▸ h.fresh⟩)
  · exact h.not_mem hin

/-- A queue that is too long by one entry was full, and none of its entries had despawned. -/
theorem full_of_long {entry : QueueEntry} {now : Instant} (hfits : o.queue.length ≤ o.desk.limit)
    (hlong : o.desk.limit < (o.joined entry now).length) :
    (o.queue.unexpired now.seconds).length = o.desk.limit := by
  have hshorter : (o.queue.unexpired now.seconds).length ≤ o.queue.length :=
    (EncounterQueue.unexpired_sublist o.queue now.seconds).length_le
  rw [joined, EncounterQueue.length_place] at hlong
  omega

/-- Where an operation stops, the queue is intact unless a change of it was under way. -/
theorem Fault.intact_iff {operation : DeskOperation} {stage : StoreOperation}
    {queue : EncounterQueue} (h : o.Fault operation stage queue)
    (hfits : o.queue.length ≤ o.desk.limit) :
    o.Intact operation queue ↔ ¬ o.Torn operation stage := by
  cases h with
  | expiring => exact iff_of_true (.inl rfl) fun htorn => by cases htorn
  | inserting => exact iff_of_true (.inr rfl) fun htorn => by cases htorn
  | cutting hjoins =>
    exact iff_of_false (hjoins.not_intact (EncounterQueue.mem_place.2 (.inl rfl))) fun h => h .uncut
  | @looking s clock entry hjoins hlong =>
    have hfull := full_of_long hfits hlong
    -- a full queue is what the cut leaves of it, if the entry that came in last is what was cut off
    by_cases hstays : entry ∈ (o.joined entry clock.now).take o.desk.limit
    · exact iff_of_false (hjoins.not_intact hstays) fun h => h (.cut hjoins hstays)
    · have hsame : (o.joined entry clock.now).take o.desk.limit
          = o.queue.unexpired clock.now.seconds := by
        rw [joined, EncounterQueue.take_place_of_not_mem hstays, ← hfull, List.take_length]
      refine iff_of_true (.inr hsame) fun htorn => ?_
      cases htorn with
      | cut hother hstays' =>
        obtain rfl := hjoins.eq hother
        exact hstays hstays'
  | taking => exact iff_of_true rfl fun htorn => by cases htorn
  | @counting s clock =>
    rw [show o.Intact (.record s clock) (o.queue.remove s.encounter).2
      ↔ (o.queue.remove s.encounter).2 = o.queue from .rfl, EncounterQueue.remove_snd_eq_self_iff]
    constructor
    · rintro habsent ⟨⟩
      rename_i hheld
      rw [habsent] at hheld
      cases hheld
    · intro hwhole
      exact Bool.eq_false_iff.2 fun hheld => hwhole (.uncounted hheld)
  | clearing => exact iff_of_true (.inl rfl) fun htorn => by cases htorn
  | handing => exact iff_of_true (.inr rfl) fun htorn => by cases htorn
  | forgetting => exact iff_of_true rfl fun htorn => by cases htorn

/-- Only a queue that was not cut is longer than the limit, and by one entry. -/
theorem Fault.length_le {operation : DeskOperation} {stage : StoreOperation}
    {queue : EncounterQueue} (h : o.Fault operation stage queue)
    (hfits : o.queue.length ≤ o.desk.limit) :
    queue.length ≤ o.desk.limit + if stage = .truncate then 1 else 0 := by
  have hkept (now : Int) : (o.queue.unexpired now).length ≤ o.desk.limit :=
    Nat.le_trans (EncounterQueue.unexpired_sublist o.queue now).length_le hfits
  cases h with
  | expiring | taking | clearing | forgetting => exact hfits
  | inserting | handing => exact hkept _
  | cutting =>
    rw [joined, EncounterQueue.length_place]
    exact Nat.succ_le_succ (hkept _)
  | looking => exact List.length_take_le _ _
  | counting => exact Nat.le_trans List.eraseP_sublist.length_le hfits

/-- After an error the queue holds the entries of before that have not despawned, in their order,
    unless the store failed in the middle of a change: after the new entry was put in, or after an
    encounter was taken out. -/
theorem queue_after_error {operation : DeskOperation} {error : JobError} {after : IvOffice}
    (hfits : o.queue.length ≤ o.desk.limit) (h : o.act operation = some (.error error, after)) :
    ∃ stage, o.Stopped operation stage error after.store
      ∧ (o.Intact operation after.queue ↔ ¬ o.Torn operation stage)
      ∧ after.queue.length ≤ o.desk.limit + if stage = .truncate then 1 else 0 := by
  obtain ⟨stage, hstopped⟩ := stopped_of_act h
  exact ⟨stage, hstopped, hstopped.left.intact_iff hfits, hstopped.left.length_le hfits⟩

/-- The encounter `queued` waits for its check. The check is made and cannot be counted: nothing
    waits any more. -/
theorem queue_after_error_uncounted :
    let area : Area := .polygons [[⟨0, 0⟩, ⟨0, 2⟩, ⟨2, 2⟩, ⟨2, 0⟩]]
    let queued : Sighting := { encounter := "queued", species := 25, place := ⟨1, 1⟩ }
    let clock : ClockReading := ⟨.ofSeconds 0, by decide⟩
    let o : IvOffice :=
      ⟨{ list := ⟨"rare", [25]⟩, area, limit := 1 },
        { queue := [⟨queued, 0, 0⟩], down := [.recordCheck] }⟩
    let left : EncounterQueue := []
    o.queue.length ≤ o.desk.limit
      ∧ o.act (.record queued clock) = some (.error (.poisoned "IV queue"), o.withQueue left)
      ∧ ∃ stage,
        o.Stopped (.record queued clock) stage (.poisoned "IV queue") (o.withQueue left).store
        ∧ (o.Intact (.record queued clock) left ↔ ¬ o.Torn (.record queued clock) stage)
        ∧ left.length ≤ o.desk.limit + if stage = .truncate then 1 else 0 := by
  intro area queued clock o left
  have hfits : o.queue.length ≤ o.desk.limit := Nat.le_refl 1
  have hinside : o.desk.area.contains queued.place = true := by decide +kernel
  have hrecord : o.desk.recordIv o.store queued clock.now
      = (.error (.poisoned "IV queue"), (o.withQueue left).store) := by
    rw [IvDesk.recordIv, hinside]
    rfl
  have hact : o.act (.record queued clock)
      = some (.error (.poisoned "IV queue"), o.withQueue left) := by
    rw [act_record (by decide +kernel), hrecord]
    rfl
  exact ⟨hfits, hact, queue_after_error hfits hact⟩

/-- The encounter `queued` fills the queue. When `late` is admitted while the queue cannot be cut,
    the answer is an error, and both wait. -/
theorem overfull_of_uncut :
    let area : Area := .polygons [[⟨0, 0⟩, ⟨0, 2⟩, ⟨2, 2⟩, ⟨2, 0⟩]]
    let queued : Sighting := { encounter := "queued", species := 25, place := ⟨1, 1⟩ }
    let late : Sighting := { encounter := "late", species := 25, place := ⟨1, 1⟩ }
    let clock : ClockReading := ⟨.ofSeconds 0, by decide⟩
    let o : IvOffice :=
      ⟨{ list := ⟨"rare", [25]⟩, area, limit := 1, sequence := 1 },
        { queue := [⟨queued, 0, 0⟩], down := [.truncate] }⟩
    let both : EncounterQueue := [⟨queued, 0, 0⟩, ⟨late, 0, 1⟩]
    o.queue.length ≤ o.desk.limit
      ∧ o.act (.offer late clock)
        = some (.error (.poisoned "IV queue"), (o.withQueue both).numbered)
      ∧ o.desk.limit < both.length ∧ ¬ o.Intact (.offer late clock) both := by
  intro area queued late clock o both
  have hinside : o.desk.area.contains late.place = true := by decide +kernel
  have hscreen : o.desk.screen late clock.now.seconds = .ok 0 := by
    rw [IvDesk.screen, hinside]
    rfl
  have hconsider : o.desk.consider o.store late clock.now
      = (.error (.poisoned "IV queue"), (o.withQueue both).numbered.desk,
        (o.withQueue both).store) := by
    rw [IvDesk.consider, hscreen]
    rfl
  refine ⟨Nat.le_refl 1, ?_, Nat.lt_succ_self 1, ?_⟩
  · rw [act_offer (by decide +kernel), hconsider]
    rfl
  · rintro (hsame | hsame)
    · exact absurd (congrArg List.length hsame) (by decide)
    · exact absurd (congrArg List.length hsame) (by decide)

end IvOffice

end ScanFleet
