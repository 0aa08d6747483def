import ScanFleet.Iv.Queue

set_option autoImplicit false

/-! # Order and contents of an encounter queue

An entry that is placed goes behind all entries that may stand in front of it. So a queue stays in
the order of its keys, and holds the entries that it held and the new one. When the new entry has a
higher number than all others, the keys are distinct, and the order is strict
(`QueueEntry.Before`): of two entries one stands in front of the other, and cutting the queue drops
entries that stand behind all that are kept. -/

namespace ScanFleet

/-- An entry stands in front of another: it has the better rank, or the lower number. -/
def QueueEntry.Before (a b : QueueEntry) : Prop :=
  a.priority < b.priority ∨ a.priority = b.priority ∧ a.sequence < b.sequence

theorem QueueEntry.not_before_self (a : QueueEntry) : ¬ a.Before a := by
  rintro (h | ⟨-, h⟩)
  · exact Nat.lt_irrefl _ h
  · exact Nat.lt_irrefl _ h

theorem QueueEntry.le_eq_true_iff {a b : QueueEntry} :
    a.le b = true ↔ a.priority < b.priority ∨ a.priority = b.priority ∧ a.sequence ≤ b.sequence := by
  simp [QueueEntry.le]

theorem QueueEntry.le_of_before {a b : QueueEntry} (h : a.Before b) : a.le b = true := by
  rw [le_eq_true_iff]
  unfold Before at h
  omega

theorem QueueEntry.le_eq_false_iff {a b : QueueEntry} : a.le b = false ↔ b.Before a := by
  rw [Bool.eq_false_iff, ne_eq, le_eq_true_iff]
  unfold Before
  omega

theorem QueueEntry.Before.trans_le {a b c : QueueEntry} (hab : a.Before b) (hbc : b.le c = true) :
    a.Before c := by
  rw [le_eq_true_iff] at hbc
  unfold QueueEntry.Before at *
  omega

namespace EncounterQueue

variable {queue : EncounterQueue} {entry : QueueEntry}

/-- No encounter is queued twice. -/
def Distinct (queue : EncounterQueue) : Prop :=
  queue.Pairwise fun a b => a.sighting.encounter ≠ b.sighting.encounter

theorem holds_eq_true_iff {encounter : String} :
    queue.holds encounter = true ↔ ∃ e ∈ queue, e.sighting.encounter = encounter := by
  simp [holds]

/-! ## Placing -/

theorem place_perm (entry : QueueEntry) (queue : EncounterQueue) :
    (place entry queue).Perm (entry :: queue) := by
  induction queue with
  | nil => exact .refl _
  | cons first rest ih =>
    rw [place]
    split
    · exact (ih.cons first).trans (.swap entry first rest)
    · exact .refl _

theorem mem_place {e : QueueEntry} : e ∈ place entry queue ↔ e = entry ∨ e ∈ queue :=
  (place_perm entry queue).mem_iff.trans List.mem_cons

theorem length_place (entry : QueueEntry) (queue : EncounterQueue) :
    (place entry queue).length = queue.length + 1 :=
  (place_perm entry queue).length_eq

/-- What holds of all pairs of a queue, of those in front of an entry with it, and of it with those
    behind, holds of all pairs once the entry is placed. -/
theorem pairwise_place {r : QueueEntry → QueueEntry → Prop}
    (hordered : queue.Pairwise fun a b => a.le b = true) (h : queue.Pairwise r)
    (hfront : ∀ e ∈ queue, e.le entry = true → r e entry)
    (hback : ∀ e ∈ queue, entry.Before e → r entry e) : (place entry queue).Pairwise r := by
  induction queue with
  | nil => exact List.pairwise_singleton _ _
  | cons first rest ih =>
    obtain ⟨hfirst, hrest⟩ := List.pairwise_cons.1 h
    obtain ⟨hle, hordered⟩ := List.pairwise_cons.1 hordered
    rw [place]
    split
    · rename_i hin
      refine List.pairwise_cons.2 ⟨fun e he => ?_, ih hordered hrest
        (fun e he => hfront e (List.mem_cons_of_mem first he))
        fun e he => hback e (List.mem_cons_of_mem first he)⟩
      rcases mem_place.1 he with rfl | he
      · exact hfront first List.mem_cons_self hin
      · exact hfirst e he
    · rename_i hout
      have hbefore : entry.Before first := QueueEntry.le_eq_false_iff.1 (Bool.eq_false_iff.2 hout)
      refine List.pairwise_cons.2 ⟨fun e he => hback e he ?_, h⟩
      rcases List.mem_cons.1 he with rfl | he
      · exact hbefore
      · exact hbefore.trans_le (hle e he)

/-- A new entry is placed behind those that go before it, and in front of all others. -/
theorem ordered_place (h : queue.Pairwise QueueEntry.Before)
    (hnew : ∀ e ∈ queue, e.sequence < entry.sequence) :
    (place entry queue).Pairwise QueueEntry.Before := by
  refine pairwise_place (h.imp QueueEntry.le_of_before) h (fun e he hle => ?_) fun _ _ => id
  rcases QueueEntry.le_eq_true_iff.1 hle with hlt | ⟨heq, -⟩
  · exact .inl hlt
  · exact .inr ⟨heq, hnew e he⟩

theorem Distinct.place (h : queue.Distinct) (hnew : queue.holds entry.sighting.encounter = false) :
    (EncounterQueue.place entry queue).Distinct := by
  refine (List.Perm.pairwise_iff (fun hne => Ne.symm hne) (place_perm entry queue)).2 ?_
  refine List.pairwise_cons.2 ⟨fun e he hsame => ?_, h⟩
  rw [holds_eq_true_iff.2 ⟨e, he, hsame.symm⟩] at hnew
  cases hnew

/-! ## Dropping -/

theorem mem_unexpired {now : Int} {e : QueueEntry} :
    e ∈ queue.unexpired now ↔ e ∈ queue ∧ e.sighting.expired now = false := by
  simp [unexpired]

theorem unexpired_sublist (queue : EncounterQueue) (now : Int) :
    List.Sublist (queue.unexpired now) queue :=
  List.filter_sublist

/-- An entry stays when another encounter is taken out. -/
theorem mem_erase_of_ne {encounter : String} {e : QueueEntry} (he : e ∈ queue)
    (hne : e.sighting.encounter ≠ encounter) : e ∈ (queue.remove encounter).2 :=
  (List.mem_eraseP_of_neg (by simpa using hne)).2 he

/-- Taking out an encounter leaves all others, in their order. -/
theorem Distinct.remove_snd (h : queue.Distinct) (encounter : String) :
    (queue.remove encounter).2 = queue.filter fun e => e.sighting.encounter != encounter := by
  dsimp only [remove]
  induction queue with
  | nil => rfl
  | cons first rest ih =>
    obtain ⟨hfirst, hrest⟩ := List.pairwise_cons.1 h
    by_cases htaken : first.sighting.encounter = encounter
    · have hall : (rest.filter fun e => e.sighting.encounter != encounter) = rest := by
        refine List.filter_eq_self.2 fun e he => ?_
        rw [bne_iff_ne, ← htaken]
        exact Ne.symm (hfirst e he)
      simp [htaken, hall]
    · simp [htaken, ih hrest]

/-- An encounter that is taken out is not queued any more. -/
theorem Distinct.encounter_ne_of_mem_erase (h : queue.Distinct) {encounter : String}
    {e : QueueEntry} (he : e ∈ (queue.remove encounter).2) : e.sighting.encounter ≠ encounter := by
  rw [h.remove_snd, List.mem_filter] at he
  exact bne_iff_ne.1 he.2

/-- What is dropped past the limit stands behind all that is kept, and the queue is full then. -/
theorem before_of_mem_drop (h : queue.Pairwise QueueEntry.Before) {limit : Nat} {e : QueueEntry}
    (he : e ∈ queue.drop limit) :
    (queue.take limit).length = limit ∧ ∀ kept ∈ queue.take limit, kept.Before e := by
  constructor
  · have hpos : 0 < (queue.drop limit).length := List.length_pos_of_mem he
    rw [List.length_drop] at hpos
    rw [List.length_take]
    omega
  · rw [← List.take_append_drop limit queue, List.pairwise_append] at h
    exact fun kept hkept => h.2.2 kept hkept e he

end EncounterQueue

end ScanFleet
