import Mathlib.Data.List.Basic
import Mathlib.Data.List.Induction
import Mathlib.Logic.ExistsUnique
import ScanFleet.Proofs.Iv.Operations

set_option autoImplicit false

/-! # Queues with any keys

Whoever inserts an entry chooses its key. Two desks that share a store number their entries each from
zero, so keys may repeat, and a lower one may come after a higher one. The queue is in the order of its
keys all the same: an entry is inserted at the one place where everything in front may stand in front
of it and nothing behind may (`EncounterQueue.place_eq_insertIdx`), and every other call leaves a part
of the queue in its order. Entries with one key stand in the order in which they joined
(`EncounterQueue.pairwise_precedes`). -/

namespace ScanFleet

/-- What is asked of a store about its queue. -/
inductive QueueCall where
  | insert (entry : QueueEntry)
  | remove (encounter : String)
  | popFront
  | truncate (limit : Nat)
  | removeExpired (now : Int)
  | clear

namespace EncounterQueue

/-- The queue after a call. -/
def after (queue : EncounterQueue) : QueueCall → EncounterQueue
  | .insert entry => (queue.insert entry).2
  | .remove encounter => (queue.remove encounter).2
  | .popFront => queue.popFront.2
  | .truncate limit => (queue.truncate limit).2
  | .removeExpired now => (queue.removeExpired now).2
  | .clear => []

/-- The queue after calls, at first without entries. -/
def afterAll (calls : List QueueCall) : EncounterQueue := calls.foldl after []

/-- The call with number `n` inserts the entry, and it is queued ever since. -/
structure JoinedAt (calls : List QueueCall) (n : Nat) (entry : QueueEntry) : Prop where
  called : calls[n]? = some (.insert entry)
  new : entry ∉ afterAll (calls.take n)
  kept : ∀ m, n < m → m ≤ calls.length → entry ∈ afterAll (calls.take m)

/-- Of two entries the first has the smaller key, or it has the same key and joined earlier. -/
def Precedes (calls : List QueueCall) (a b : QueueEntry) : Prop :=
  a.Before b ∨ (a.priority = b.priority ∧ a.sequence = b.sequence
    ∧ ∀ m n, JoinedAt calls m a → JoinedAt calls n b → m < n)

/-- In front of place `n` stand the elements with a property, and behind it those without. -/
structure PartedAt {α : Type} (p : α → Bool) (xs : List α) (n : Nat) : Prop where
  le_length : n ≤ xs.length
  front : ∀ x ∈ xs.take n, p x = true
  back : ∀ x ∈ xs.drop n, p x = false

variable {queue : EncounterQueue} {entry : QueueEntry} {calls : List QueueCall} {call : QueueCall}

/-! ## The place of an entry -/

/-- In a queue that is in order, those that may stand in front of an entry stand in front of those that
    may not. -/
theorem exists_partedAt (h : queue.Pairwise fun a b => a.le b = true) (entry : QueueEntry) :
    ∃ n, PartedAt (·.le entry) queue n := by
  induction queue with
  | nil => exact ⟨0, Nat.le_refl 0, by simp, by simp⟩
  | cons first rest ih =>
    obtain ⟨hfirst, hrest⟩ := List.pairwise_cons.1 h
    cases hle : first.le entry with
    | true =>
      obtain ⟨n, hn, hfront, hback⟩ := ih hrest
      refine ⟨n + 1, Nat.succ_le_succ hn, ?_, hback⟩
      rw [List.take_succ_cons]
      exact List.forall_mem_cons.2 ⟨hle, hfront⟩
    | false =>
      have hbehind : ∀ e ∈ rest, e.le entry = false := fun e he =>
        QueueEntry.le_eq_false_iff.2 ((QueueEntry.le_eq_false_iff.1 hle).trans_le (hfirst e he))
      refine ⟨0, Nat.zero_le _, by simp, ?_⟩
      exact List.forall_mem_cons.2 ⟨hle, hbehind⟩

/-- An entry is placed where those end that may stand in front of it. -/
theorem place_eq_insertIdx {n : Nat} (h : PartedAt (·.le entry) queue n) :
    place entry queue = queue.insertIdx n entry := by
  induction queue generalizing n with
  | nil =>
    obtain rfl := Nat.le_zero.1 h.le_length
    rfl
  | cons first rest ih =>
    cases n with
    | zero =>
      have hfirst : first.le entry = false := h.back first List.mem_cons_self
      rw [place, hfirst, if_neg Bool.false_ne_true, List.insertIdx_zero]
    | succ n =>
      have hfirst : first.le entry = true := h.front first (by simp)
      have hrest : PartedAt (·.le entry) rest n :=
        ⟨Nat.le_of_succ_le_succ h.le_length, fun e he => h.front e (by simp [he]), h.back⟩
      rw [place, hfirst, if_pos rfl, ih hrest, List.insertIdx_succ_cons]

/-! ## One call -/

/-- A call leaves a part of the queue in its order, or it places an entry for a new encounter. -/
theorem after_cases (queue : EncounterQueue) (call : QueueCall) :
    List.Sublist (queue.after call) queue
      ∨ ∃ entry, call = .insert entry ∧ queue.holds entry.sighting.encounter = false
        ∧ queue.after call = place entry queue := by
  cases call with
  | insert entry =>
    rw [after, insert]
    cases hholds : queue.holds entry.sighting.encounter with
    | true => exact .inl (.refl _)
    | false => exact .inr ⟨entry, rfl, hholds, rfl⟩
  | remove encounter => exact .inl List.eraseP_sublist
  | popFront =>
    cases queue with
    | nil => exact .inl (.refl _)
    | cons first rest => exact .inl (List.sublist_cons_self first rest)
  | truncate limit => exact .inl (List.take_sublist limit queue)
  | removeExpired now => exact .inl (queue.unexpired_sublist now)
  | clear => exact .inl (List.nil_sublist queue)

theorem afterAll_append_singleton (calls : List QueueCall) (call : QueueCall) :
    afterAll (calls ++ [call]) = (afterAll calls).after call := by
  rw [afterAll, List.foldl_append]
  rfl

/-- An entry that is queued after a call was queued before, or the call inserts it. -/
theorem mem_or_inserted_of_mem_after (h : entry ∈ queue.after call) :
    entry ∈ queue ∨ call = .insert entry := by
  rcases queue.after_cases call with hsublist | ⟨joining, rfl, -, hplaced⟩
  · exact .inl (hsublist.subset h)
  · rw [hplaced, mem_place] at h
    rcases h with rfl | hold
    · exact .inr rfl
    · exact .inl hold

theorem distinct_after (h : queue.Distinct) (call : QueueCall) : (queue.after call).Distinct := by
  rcases queue.after_cases call with hsublist | ⟨entry, -, hnew, hplaced⟩
  · exact h.sublist hsublist
  · rw [hplaced]
    exact h.place hnew

theorem ordered_after (h : queue.Pairwise fun a b => a.le b = true) (call : QueueCall) :
    (queue.after call).Pairwise fun a b => a.le b = true := by
  rcases queue.after_cases call with hsublist | ⟨entry, -, -, hplaced⟩
  · exact h.sublist hsublist
  · rw [hplaced]
    exact pairwise_place h h (fun _ _ hle => hle) fun _ _ => QueueEntry.le_of_before

/-! ## Runs of calls -/

theorem distinct_afterAll (calls : List QueueCall) : (afterAll calls).Distinct :=
  List.foldlRecOn calls after List.Pairwise.nil fun _ h call _ => distinct_after h call

theorem ordered_afterAll (calls : List QueueCall) :
    (afterAll calls).Pairwise fun a b => a.le b = true :=
  List.foldlRecOn calls after List.Pairwise.nil fun _ h call _ => ordered_after h call

theorem JoinedAt.lt_length {n : Nat} (h : JoinedAt calls n entry) : n < calls.length :=
  (List.getElem?_eq_some_iff.1 h.called).1

/-- An entry that is queued has joined with one call. -/
theorem JoinedAt.unique {m n : Nat} (hm : JoinedAt calls m entry) (hn : JoinedAt calls n entry) :
    m = n := by
  rcases Nat.lt_trichotomy m n with hlt | heq | hlt
  · exact absurd (hm.kept n hlt (Nat.le_of_lt hn.lt_length)) hn.new
  · exact heq
  · exact absurd (hn.kept m hlt (Nat.le_of_lt hm.lt_length)) hm.new

/-- One more call leaves an entry joined if it is still queued. -/
theorem JoinedAt.append {n : Nat} (h : JoinedAt calls n entry)
    (hkept : entry ∈ afterAll (calls ++ [call])) : JoinedAt (calls ++ [call]) n entry where
  called := by rw [List.getElem?_append_left h.lt_length, h.called]
  new := by
    rw [List.take_append_of_le_length (Nat.le_of_lt h.lt_length)]
    exact h.new
  kept m hlater hm := by
    rw [List.length_append, List.length_singleton] at hm
    rcases Nat.lt_or_eq_of_le hm with hlt | rfl
    · rw [List.take_append_of_le_length (Nat.le_of_lt_succ hlt)]
      exact h.kept m hlater (Nat.le_of_lt_succ hlt)
    · rwa [List.take_of_length_le (by simp)]

/-- An entry that was queued before the last call joined before it. -/
theorem JoinedAt.of_append {n : Nat} (h : JoinedAt (calls ++ [call]) n entry)
    (hold : entry ∈ afterAll calls) : JoinedAt calls n entry := by
  have hlt : n < calls.length := by
    have hlength := h.lt_length
    rw [List.length_append, List.length_singleton] at hlength
    refine Nat.lt_of_le_of_ne (Nat.le_of_lt_succ hlength) fun hlast => h.new ?_
    rwa [List.take_append_of_le_length (Nat.le_of_eq hlast), hlast, List.take_length]
  have hearlier {m : Nat} (hm : m ≤ calls.length) : (calls ++ [call]).take m = calls.take m :=
    List.take_append_of_le_length hm
  refine ⟨?_, ?_, fun m hlater hm => ?_⟩
  · rw [← h.called, List.getElem?_append_left hlt]
  · rw [← hearlier (Nat.le_of_lt hlt)]
    exact h.new
  · rw [← hearlier hm]
    exact h.kept m hlater (by rw [List.length_append]; omega)

/-- An entry that the last call inserts joins with this call and no other. -/
theorem joinedAt_append_iff {n : Nat} (hnew : entry ∉ afterAll calls)
    (hkept : entry ∈ afterAll (calls ++ [.insert entry])) :
    JoinedAt (calls ++ [.insert entry]) n entry ↔ n = calls.length := by
  have hjoined : JoinedAt (calls ++ [.insert entry]) calls.length entry := by
    refine ⟨List.getElem?_concat_length, by rwa [List.take_left], fun m hlater _ => ?_⟩
    rwa [List.take_of_length_le (by rw [List.length_append, List.length_singleton]; omega)]
  constructor
  · exact fun h => h.unique hjoined
  · rintro rfl
    exact hjoined

theorem exists_joinedAt (h : entry ∈ afterAll calls) : ∃ n, JoinedAt calls n entry := by
  induction calls using List.reverseRecOn with
  | nil => cases h
  | append_singleton calls call ih =>
    by_cases hold : entry ∈ afterAll calls
    · obtain ⟨n, hjoined⟩ := ih hold
      exact ⟨n, hjoined.append h⟩
    · rw [afterAll_append_singleton] at h
      obtain rfl := (mem_or_inserted_of_mem_after h).resolve_left hold
      rw [← afterAll_append_singleton] at h
      exact ⟨calls.length, (joinedAt_append_iff hold h).2 rfl⟩

/-- Two entries that were queued before the last call stand to each other as they did. -/
theorem Precedes.append {a b : QueueEntry} (h : Precedes calls a b) (ha : a ∈ afterAll calls)
    (hb : b ∈ afterAll calls) : Precedes (calls ++ [call]) a b := by
  rcases h with hbefore | ⟨hpriority, hsequence, hjoined⟩
  · exact .inl hbefore
  · exact .inr ⟨hpriority, hsequence,
      fun m n hm hn => hjoined m n (hm.of_append ha) (hn.of_append hb)⟩

/-- A queue is in the order of its keys, and entries with one key are in the order in which they
    joined. -/
theorem pairwise_precedes (calls : List QueueCall) :
    (afterAll calls).Pairwise (Precedes calls) := by
  induction calls using List.reverseRecOn with
  | nil => exact List.Pairwise.nil
  | append_singleton calls call ih =>
    have hold : (afterAll calls).Pairwise (Precedes (calls ++ [call])) :=
      ih.imp_of_mem fun ha hb h => h.append ha hb
    rw [afterAll_append_singleton]
    rcases (afterAll calls).after_cases call with hsublist | ⟨entry, rfl, hnew, hplaced⟩
    · exact hold.sublist hsublist
    · have hunqueued : entry ∉ afterAll calls := fun hmem =>
        absurd (holds_eq_true_iff.2 ⟨entry, hmem, rfl⟩) (by rw [hnew]; exact Bool.false_ne_true)
      have hqueued : entry ∈ afterAll (calls ++ [.insert entry]) := by
        rw [afterAll_append_singleton, hplaced]
        exact mem_place.2 (.inl rfl)
      rw [hplaced]
      refine pairwise_place (ordered_afterAll calls) hold (fun e he hle => ?_) fun _ _ => .inl
      -- of one key, the entry in front joined with an earlier call
      by_cases hbefore : e.Before entry
      · exact .inl hbefore
      · rw [QueueEntry.le_eq_true_iff] at hle
        unfold QueueEntry.Before at hbefore
        refine .inr ⟨by omega, by omega, fun m n hm hn => ?_⟩
        rw [(joinedAt_append_iff hunqueued hqueued).1 hn]
        exact (hm.of_append he).lt_length

end EncounterQueue

namespace EncounterStore

variable {store : EncounterStore}

/-- The store after a call. -/
def called (s : EncounterStore) : QueueCall → Except JobError EncounterStore
  | .insert entry => (s.insert entry).map (·.2)
  | .remove encounter => (s.remove encounter).map (·.2)
  | .popFront => s.popFront.map (·.2)
  | .truncate limit => (s.truncate limit).map (·.2)
  | .removeExpired now => (s.removeExpired now).map (·.2)
  | .clear => s.clear.map (·.2)

/-- The store after calls. -/
def calledAll (s : EncounterStore) (calls : List QueueCall) : Except JobError EncounterStore :=
  calls.foldlM called s

/-- A store that works carries out every call on its queue. -/
theorem called_ok (hworks : store.down = []) (call : QueueCall) :
    ∃ after, store.called call = .ok after ∧ after.down = [] ∧ after.queue = store.queue.after call := by
  cases call with
  | insert entry =>
    refine ⟨_, congrArg (Except.map _) (IvOffice.guard_eq hworks .insert _), hworks, rfl⟩
  | remove encounter =>
    exact ⟨_, congrArg (Except.map _) (IvOffice.guard_eq hworks .remove _), hworks, rfl⟩
  | popFront =>
    exact ⟨_, congrArg (Except.map _) (IvOffice.guard_eq hworks .popFront _), hworks, rfl⟩
  | truncate limit =>
    exact ⟨_, congrArg (Except.map _) (IvOffice.guard_eq hworks .truncate _), hworks, rfl⟩
  | removeExpired now =>
    exact ⟨_, congrArg (Except.map _) (IvOffice.guard_eq hworks .removeExpired _), hworks, rfl⟩
  | clear => exact ⟨_, congrArg (Except.map _) (IvOffice.guard_eq hworks .clear _), hworks, rfl⟩

theorem calledAll_ok (hworks : store.down = []) (calls : List QueueCall) :
    ∃ after, store.calledAll calls = .ok after ∧ after.down = []
      ∧ after.queue = calls.foldl EncounterQueue.after store.queue := by
  induction calls generalizing store with
  | nil => exact ⟨store, rfl, hworks, rfl⟩
  | cons call rest ih =>
    obtain ⟨next, hnext, hdown, hqueue⟩ := called_ok hworks call
    obtain ⟨after, hafter, hworks, hrest⟩ := ih hdown
    refine ⟨after, ?_, hworks, by rw [hrest, hqueue, List.foldl_cons]⟩
    rw [calledAll, List.foldlM_cons, hnext]
    exact hafter

/-- The answers of a store tell what a call did to its queue. -/
structure AnswersTruly (store : EncounterStore) : Prop where
  /-- An insertion is refused just for an encounter that is queued, and then changes nothing; else
      the entry goes where those end that may stand in front of it. -/
  insert (entry : QueueEntry) : ∃ inserted after, store.insert entry = .ok (inserted, after)
    ∧ (inserted = false ↔ ∃ e ∈ store.queue, e.sighting.encounter = entry.sighting.encounter)
    ∧ (inserted = false → after = store)
    ∧ (inserted = true → ∃ n, EncounterQueue.PartedAt (·.le entry) store.queue n
      ∧ ∀ n, EncounterQueue.PartedAt (·.le entry) store.queue n →
        after.queue = store.queue.insertIdx n entry)
  /-- The entries past the limit are dropped and counted. -/
  truncate (limit : Nat) : ∃ dropped after, store.truncate limit = .ok (dropped, after)
    ∧ ∃ past, store.queue = after.queue ++ past ∧ past.length = dropped
      ∧ after.queue.length = min limit store.queue.length
  /-- The entries that have despawned are dropped and counted. -/
  removeExpired (now : Int) : ∃ dropped after, store.removeExpired now = .ok (dropped, after)
    ∧ after.queue = (store.queue.filter fun e => !e.sighting.expired now)
    ∧ dropped = store.queue.countP fun e => e.sighting.expired now

theorem insert_of_held (hworks : store.down = []) {entry : QueueEntry}
    (hheld : store.queue.holds entry.sighting.encounter = true) :
    store.insert entry = .ok (false, store) := by
  unfold EncounterStore.insert EncounterQueue.insert
  rw [hheld]
  exact IvOffice.guard_eq hworks .insert _

theorem insert_of_new (hworks : store.down = []) {entry : QueueEntry}
    (hnew : store.queue.holds entry.sighting.encounter = false) :
    store.insert entry = .ok (true, { store with queue := .place entry store.queue }) := by
  unfold EncounterStore.insert EncounterQueue.insert
  rw [hnew]
  exact IvOffice.guard_eq hworks .insert _

theorem answersTruly (hworks : store.down = [])
    (hordered : store.queue.Pairwise fun a b => a.le b = true) : store.AnswersTruly where
  insert entry := by
    rw [← EncounterQueue.holds_eq_true_iff]
    cases hholds : store.queue.holds entry.sighting.encounter with
    | true => exact ⟨false, store, insert_of_held hworks hholds, by simp, fun _ => rfl, nofun⟩
    | false =>
      refine ⟨true, _, insert_of_new hworks hholds, by simp, nofun, fun _ => ?_⟩
      obtain ⟨n, hparted⟩ := EncounterQueue.exists_partedAt hordered entry
      exact ⟨n, hparted, fun m => EncounterQueue.place_eq_insertIdx⟩
  truncate limit := by
    refine ⟨_, _, IvOffice.guard_eq hworks .truncate _, store.queue.drop limit, ?_, ?_, ?_⟩
    · exact (List.take_append_drop limit store.queue).symm
    · exact List.length_drop
    · exact List.length_take
  removeExpired now := by
    refine ⟨_, _, IvOffice.guard_eq hworks .removeExpired _, rfl, ?_⟩
    have hcount := List.length_eq_length_filter_add (l := store.queue)
      fun e => e.sighting.expired now
    show store.queue.length - (store.queue.filter fun e => !e.sighting.expired now).length = _
    rw [List.countP_eq_length_filter]
    omega

/-- Whatever keys its entries are given, after any calls the queue of a store is in the order of its
    keys; entries with one key are in the order in which they joined, each with a call of its own. No
    encounter is queued twice, and the store answers truly. -/
theorem queue_in_order (calls : List QueueCall) :
    ∃ store, ({} : EncounterStore).calledAll calls = .ok store
      ∧ store.queue = EncounterQueue.afterAll calls
      ∧ (store.queue.Pairwise fun a b => a.le b = true)
      ∧ (∀ entry ∈ store.queue, ∃! n, EncounterQueue.JoinedAt calls n entry)
      ∧ store.queue.Pairwise (EncounterQueue.Precedes calls)
      ∧ store.queue.Distinct ∧ store.AnswersTruly := by
  have hworks : ({} : EncounterStore).down = [] := rfl
  obtain ⟨store, hstore, hworks, hqueue⟩ := calledAll_ok hworks calls
  replace hqueue : store.queue = EncounterQueue.afterAll calls := hqueue
  have hordered : store.queue.Pairwise fun a b => a.le b = true :=
    hqueue ▸ EncounterQueue.ordered_afterAll calls
  refine ⟨store, hstore, hqueue, hordered, fun entry hentry => ?_, ?_, ?_,
    answersTruly hworks hordered⟩
  · obtain ⟨n, hn⟩ := EncounterQueue.exists_joinedAt (hqueue ▸ hentry)
    exact ⟨n, hn, fun m hm => hm.unique hn⟩
  · rw [hqueue]
    exact EncounterQueue.pairwise_precedes calls
  · rw [hqueue]
    exact EncounterQueue.distinct_afterAll calls

/-- An encounter that joins anew goes behind its equal, and a number may have been used up long ago. -/
example :
    let entry (encounter : String) (priority sequence : Nat) : QueueEntry :=
      ⟨{ encounter, species := 1, place := default }, priority, sequence⟩
    (EncounterQueue.afterAll [.insert (entry "a" 2 5), .insert (entry "b" 2 5), .remove "a",
      .insert (entry "c" 0 9), .insert (entry "a" 2 5), .insert (entry "d" 2 0)]).map
        (·.sighting.encounter) = ["c", "d", "b", "a"] := by
  decide

end EncounterStore

end ScanFleet
