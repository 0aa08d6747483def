import Mathlib.Data.List.Sort
import ScanFleet.Proofs.Iv.Ledger

set_option autoImplicit false

/-! # A bounded queue keeps the best

A desk places each sighting as it is reported and at once drops what stands past the limit. An
encounter that was dropped may be reported again, under a new number. Nevertheless the queue is what
one gets from all reports together: sort the first reports of the encounters by rank, those of one
rank in the order in which they came, and keep the first ones (`IvDesk.best`). While the clock stands
still nothing but a better report drives an entry out, so what was dropped stands behind a full queue
for good. -/

namespace ScanFleet

/-! ## Sorting as one goes -/

section Sorting

variable {α : Type} (rank : α → Nat)

/-- Sorts by rank; of one rank the earlier stays in front. -/
def sortByRank (xs : List α) : List α := xs.mergeSort fun a b => rank a ≤ rank b

/-- Puts an element behind all that rank at least as high. -/
def insertByRank (a : α) (xs : List α) : List α := xs.orderedInsert (fun a b => rank a < rank b) a

theorem sortByRank_perm (xs : List α) : (sortByRank rank xs).Perm xs := List.mergeSort_perm xs _

theorem rank_le_trans (a b c : α) (hab : decide (rank a ≤ rank b) = true)
    (hbc : decide (rank b ≤ rank c) = true) : decide (rank a ≤ rank c) = true := by
  rw [decide_eq_true_eq] at *
  exact Nat.le_trans hab hbc

theorem rank_le_total (a b : α) : (decide (rank a ≤ rank b) || decide (rank b ≤ rank a)) = true := by
  rw [Bool.or_eq_true, decide_eq_true_eq, decide_eq_true_eq]
  exact Nat.le_total (rank a) (rank b)

theorem sortByRank_sorted (xs : List α) :
    (sortByRank rank xs).Pairwise fun a b => rank a ≤ rank b := by
  have hsorted := List.pairwise_mergeSort (rank_le_trans rank) (rank_le_total rank) xs
  exact hsorted.imp of_decide_eq_true

/-- The first element goes in front of those that do not rank higher. -/
theorem sortByRank_cons (a : α) (xs : List α) :
    sortByRank rank (a :: xs)
      = (sortByRank rank xs).orderedInsert (fun a b => rank a ≤ rank b) a := by
  obtain ⟨higher, others, hcons, htail, hhigher⟩ :=
    List.mergeSort_cons (rank_le_trans rank) (rank_le_total rank) a xs
  have hsorted := sortByRank_sorted rank (a :: xs)
  unfold sortByRank at hsorted ⊢
  rw [hcons] at hsorted ⊢
  rw [htail]
  have hothers : ∀ b ∈ others, rank a ≤ rank b :=
    (List.pairwise_cons.1 (List.pairwise_append.1 hsorted).2.1).1
  clear hcons htail hsorted
  induction higher with
  | nil =>
    cases others with
    | nil => rfl
    | cons b rest => exact (List.orderedInsert_cons_of_le _ rest (hothers b List.mem_cons_self)).symm
  | cons b rest ih =>
    have hb : ¬ rank a ≤ rank b := by simpa using hhigher b List.mem_cons_self
    rw [List.cons_append, List.cons_append, List.orderedInsert_cons, if_neg hb,
      ih fun c hc => hhigher c (List.mem_cons_of_mem b hc)]

/-- One element at the front and one at the back can be put in place in either order. -/
theorem insertByRank_orderedInsert (a b : α) (xs : List α) :
    insertByRank rank b (xs.orderedInsert (fun a b => rank a ≤ rank b) a)
      = (insertByRank rank b xs).orderedInsert (fun a b => rank a ≤ rank b) a := by
  unfold insertByRank
  induction xs with
  | nil =>
    by_cases hba : rank b < rank a
    · simp [hba]
    · simp [hba, Nat.le_of_not_lt hba]
  | cons first rest ih =>
    by_cases ha : rank a ≤ rank first
    · by_cases hb : rank b < rank first
      · by_cases hba : rank b < rank a
        · simp [ha, hb, hba]
        · simp [ha, hb, hba, Nat.le_of_not_lt hba]
      · have hba : ¬ rank b < rank a := by omega
        simp [ha, hb, hba]
    · by_cases hb : rank b < rank first
      · have hab : ¬ rank a ≤ rank b := by omega
        simp [ha, hb, hab]
      · simp [ha, hb, ih]

theorem sortByRank_append_singleton (xs : List α) (a : α) :
    sortByRank rank (xs ++ [a]) = insertByRank rank a (sortByRank rank xs) := by
  induction xs with
  | nil => simp [sortByRank, insertByRank]
  | cons first rest ih =>
    rw [List.cons_append, sortByRank_cons, ih, sortByRank_cons, insertByRank_orderedInsert]

/-- What stands past the limit may be dropped before or after an element is put in place. -/
theorem take_insertByRank_take (a : α) (xs : List α) (limit : Nat) :
    (insertByRank rank a (xs.take limit)).take limit = (insertByRank rank a xs).take limit := by
  unfold insertByRank
  induction xs generalizing limit with
  | nil => simp
  | cons first rest ih =>
    cases limit with
    | zero => rfl
    | succ limit =>
      have htake : (first :: rest).take (limit + 1) = first :: rest.take limit := List.take_succ_cons
      rw [htake, List.orderedInsert_cons, List.orderedInsert_cons]
      by_cases ha : rank a < rank first
      · rw [if_pos ha, if_pos ha, ← htake]
        show a :: ((first :: rest).take (limit + 1)).take limit = a :: (first :: rest).take limit
        rw [List.take_take, Nat.min_eq_left (Nat.le_succ limit)]
      · rw [if_neg ha, if_neg ha, List.take_succ_cons, List.take_succ_cons, ih]

/-- An element that belongs behind all others goes to the end. -/
theorem insertByRank_of_le {a : α} {xs : List α} (h : ∀ b ∈ xs, rank b ≤ rank a) :
    insertByRank rank a xs = xs ++ [a] := by
  unfold insertByRank
  induction xs with
  | nil => rfl
  | cons first rest ih =>
    have hfirst : ¬ rank a < rank first := Nat.not_lt.2 (h first List.mem_cons_self)
    rw [List.orderedInsert_cons, if_neg hfirst, ih fun b hb => h b (List.mem_cons_of_mem first hb),
      List.cons_append]

/-- An element that stands past the limit already changes nothing when it comes again. -/
theorem take_insertByRank_of_mem_drop {a : α} {xs : List α}
    (hsorted : xs.Pairwise fun a b => rank a ≤ rank b) {limit : Nat} (ha : a ∈ xs.drop limit) :
    (insertByRank rank a xs).take limit = xs.take limit := by
  have hlength : (xs.take limit).length = limit := by
    have hpos := List.length_pos_of_mem ha
    rw [List.length_drop] at hpos
    rw [List.length_take]
    omega
  have hbehind : ∀ b ∈ xs.take limit, rank b ≤ rank a := by
    rw [← List.take_append_drop limit xs, List.pairwise_append] at hsorted
    exact fun b hb => hsorted.2.2 b hb a ha
  rw [← take_insertByRank_take, insertByRank_of_le rank hbehind, List.take_left' hlength]

end Sorting

/-! ## Reports -/

/-- Of several reports of one encounter the first. -/
def firstReports : List Sighting → List Sighting
  | [] => []
  | s :: rest => s :: (firstReports rest).filter fun t => t.encounter ≠ s.encounter

/-- Reports of one encounter tell the same. -/
def Consistent (reports : List Sighting) : Prop :=
  ∀ s ∈ reports, ∀ t ∈ reports, s.encounter = t.encounter → s = t

theorem mem_of_mem_firstReports {reports : List Sighting} {s : Sighting}
    (h : s ∈ firstReports reports) : s ∈ reports := by
  induction reports with
  | nil => exact h
  | cons first rest ih =>
    rcases List.mem_cons.1 h with rfl | hrest
    · exact List.mem_cons_self
    · exact List.mem_cons_of_mem first (ih (List.mem_filter.1 hrest).1)

theorem exists_firstReports {reports : List Sighting} {s : Sighting} (h : s ∈ reports) :
    ∃ t ∈ firstReports reports, t.encounter = s.encounter := by
  induction reports with
  | nil => cases h
  | cons first rest ih =>
    by_cases hsame : first.encounter = s.encounter
    · exact ⟨first, List.mem_cons_self, hsame⟩
    · rcases List.mem_cons.1 h with rfl | hrest
      · exact absurd rfl hsame
      · obtain ⟨t, ht, hencounter⟩ := ih hrest
        refine ⟨t, List.mem_cons_of_mem first (List.mem_filter.2 ⟨ht, ?_⟩), hencounter⟩
        simpa [hencounter] using Ne.symm hsame

theorem firstReports_append_of_new {reports : List Sighting} {s : Sighting}
    (h : ∀ t ∈ reports, t.encounter ≠ s.encounter) :
    firstReports (reports ++ [s]) = firstReports reports ++ [s] := by
  induction reports with
  | nil => rfl
  | cons first rest ih =>
    have hfirst : s.encounter ≠ first.encounter := Ne.symm (h first List.mem_cons_self)
    rw [List.cons_append, firstReports, firstReports,
      ih fun t ht => h t (List.mem_cons_of_mem first ht), List.filter_append,
      List.filter_cons_of_pos (by simpa using hfirst), List.filter_nil, List.cons_append]

theorem firstReports_append_of_reported {reports : List Sighting} {s : Sighting}
    (h : ∃ t ∈ reports, t.encounter = s.encounter) :
    firstReports (reports ++ [s]) = firstReports reports := by
  induction reports with
  | nil =>
    obtain ⟨t, ht, -⟩ := h
    cases ht
  | cons first rest ih =>
    rw [List.cons_append, firstReports, firstReports]
    by_cases hrest : ∃ t ∈ rest, t.encounter = s.encounter
    · rw [ih hrest]
    · -- the first report is of this encounter, and the last one is left out for it
      have hnew : ∀ t ∈ rest, t.encounter ≠ s.encounter := fun t ht hsame => hrest ⟨t, ht, hsame⟩
      have hfirst : s.encounter = first.encounter := by
        obtain ⟨t, ht, hsame⟩ := h
        rcases List.mem_cons.1 ht with rfl | ht
        · exact hsame.symm
        · exact absurd hsame (hnew t ht)
      rw [firstReports_append_of_new hnew, List.filter_append,
        List.filter_cons_of_neg (by simpa using hfirst), List.filter_nil, List.append_nil]

namespace IvDesk

/-- The rank of a sighting whose species is listed. -/
def rankOf (d : IvDesk) (s : Sighting) : Nat := (d.list.rank? s.species).getD 0

/-- Whether a sighting may be queued: its species is listed, its individual values are not known, it
    lies inside the area, and it has not despawned. -/
def admissible (d : IvDesk) (now : Instant) (s : Sighting) : Bool :=
  (d.list.rank? s.species).isSome && s.iv.isNone && d.area.contains? s.place == some true
    && !s.expired now.seconds

/-- The first reports of the encounters that may be queued, sorted by rank. -/
def ranking (d : IvDesk) (now : Instant) (reports : List Sighting) : List Sighting :=
  sortByRank d.rankOf (firstReports (reports.filter (d.admissible now)))

/-- As many of the best reports as may be queued. -/
def best (d : IvDesk) (now : Instant) (reports : List Sighting) : List Sighting :=
  (d.ranking now reports).take d.limit

variable {d : IvDesk} {s : Sighting} {now : Instant} {reports : List Sighting}

theorem mem_ranking :
    s ∈ d.ranking now reports ↔ s ∈ firstReports (reports.filter (d.admissible now)) :=
  (sortByRank_perm d.rankOf _).mem_iff

theorem ranking_sorted (d : IvDesk) (now : Instant) (reports : List Sighting) :
    (d.ranking now reports).Pairwise fun a b => d.rankOf a ≤ d.rankOf b :=
  sortByRank_sorted d.rankOf _

theorem mem_reports_of_mem_ranking (h : s ∈ d.ranking now reports) :
    s ∈ reports ∧ d.admissible now s = true :=
  List.mem_filter.1 (mem_of_mem_firstReports (mem_ranking.1 h))

theorem ranking_append_of_not_admissible (h : d.admissible now s = false) :
    d.ranking now (reports ++ [s]) = d.ranking now reports := by
  unfold ranking
  rw [List.filter_append, List.filter_cons_of_neg (by simp [h]), List.filter_nil, List.append_nil]

theorem ranking_append_of_reported (h : s ∈ d.ranking now reports) :
    d.ranking now (reports ++ [s]) = d.ranking now reports := by
  have hreported := mem_of_mem_firstReports (mem_ranking.1 h)
  unfold ranking
  rw [List.filter_append, List.filter_cons_of_pos (List.mem_filter.1 hreported).2, List.filter_nil,
    firstReports_append_of_reported ⟨s, hreported, rfl⟩]

theorem ranking_append_of_new (h : d.admissible now s = true)
    (hnew : ∀ t ∈ d.ranking now reports, t.encounter ≠ s.encounter) :
    d.ranking now (reports ++ [s]) = insertByRank d.rankOf s (d.ranking now reports) := by
  have hunreported : ∀ t ∈ reports.filter (d.admissible now), t.encounter ≠ s.encounter := by
    intro t ht hsame
    obtain ⟨u, hu, hencounter⟩ := exists_firstReports ht
    exact hnew u (mem_ranking.2 hu) (hencounter.trans hsame)
  unfold ranking
  rw [List.filter_append, List.filter_cons_of_pos h, List.filter_nil,
    firstReports_append_of_new hunreported, sortByRank_append_singleton]

theorem best_append_of_not_admissible (h : d.admissible now s = false) :
    d.best now (reports ++ [s]) = d.best now reports := by
  rw [best, ranking_append_of_not_admissible h, best]

theorem best_append_of_mem (h : s ∈ d.best now reports) :
    d.best now (reports ++ [s]) = d.best now reports := by
  rw [best, ranking_append_of_reported (List.mem_of_mem_take h), best]

/-- A sighting that is not among the best is put in place as if it were new, also when it was reported
    before and dropped. -/
theorem best_append_of_not_mem (h : d.admissible now s = true)
    (hsame : ∀ t ∈ d.ranking now reports, t.encounter = s.encounter → t = s)
    (hnot : s ∉ d.best now reports) :
    d.best now (reports ++ [s])
      = (insertByRank d.rankOf s (d.ranking now reports)).take d.limit := by
  rw [best]
  by_cases hreported : s ∈ d.ranking now reports
  · have hdropped : s ∈ (d.ranking now reports).drop d.limit := by
      rw [← List.take_append_drop d.limit (d.ranking now reports), List.mem_append] at hreported
      exact hreported.resolve_left hnot
    rw [ranking_append_of_reported hreported,
      take_insertByRank_of_mem_drop _ (d.ranking_sorted now reports) hdropped]
  · have hnew : ∀ t ∈ d.ranking now reports, t.encounter ≠ s.encounter :=
      fun t ht hencounter => hreported (hsame t ht hencounter ▸ ht)
    rw [ranking_append_of_new h hnew]

theorem not_expired_of_admissible (h : d.admissible now s = true) :
    s.expired now.seconds = false := by
  simpa using (Bool.and_eq_true_iff.1 h).2

/-- What passes the screen is what may be queued. -/
theorem screen_of_admissible (h : d.admissible now s = true) :
    d.canScreen s = true ∧ d.screen s now.seconds = .ok (d.rankOf s) := by
  simp only [admissible, Bool.and_eq_true, Option.isSome_iff_exists, Option.isNone_iff_eq_none,
    beq_iff_eq, Bool.not_eq_true'] at h
  obtain ⟨⟨⟨⟨rank, hrank⟩, hiv⟩, hinside⟩, hexpired⟩ := h
  have hcontains := Area.contains_eq_of_contains? hinside
  constructor
  · simp [canScreen, hinside]
  · simp [screen, rankOf, hrank, hiv, ← hcontains, hexpired]

theorem admissible_of_screen {rank : Nat} (hasked : d.canScreen s = true)
    (h : d.screen s now.seconds = .ok rank) : d.admissible now s = true := by
  obtain ⟨hlisted, hinside, hunchecked⟩ :=
    IvOffice.takes_of_screen (o := { desk := d }) hasked h 0
  have hcontains := Area.contains_eq_of_contains? hinside
  have hunchecked : s.iv = none := hunchecked
  have hexpired : s.expired now.seconds = false := by
    unfold screen at h
    rw [hlisted, hunchecked, ← hcontains] at h
    simpa using h
  simp [admissible, hlisted, hinside, hunchecked, hexpired]

end IvDesk

namespace EncounterQueue

/-- An entry that is placed goes where its rank puts its sighting, if its number is the highest. -/
theorem map_place {queue : EncounterQueue} {entry : QueueEntry} {rank : Sighting → Nat}
    (hentry : entry.priority = rank entry.sighting)
    (hqueue : ∀ e ∈ queue, e.priority = rank e.sighting ∧ e.sequence < entry.sequence) :
    (place entry queue).map (·.sighting)
      = insertByRank rank entry.sighting (queue.map (·.sighting)) := by
  unfold insertByRank
  induction queue with
  | nil => rfl
  | cons first rest ih =>
    obtain ⟨hrank, hnumber⟩ := hqueue first List.mem_cons_self
    have hle : first.le entry = true ↔ ¬ rank entry.sighting < rank first.sighting := by
      rw [QueueEntry.le_eq_true_iff]
      omega
    rw [place, List.map_cons, List.orderedInsert_cons]
    by_cases hlt : rank entry.sighting < rank first.sighting
    · rw [if_neg fun h => hle.1 h hlt, if_pos hlt, List.map_cons, List.map_cons]
    · rw [if_pos (hle.2 hlt), if_neg hlt, List.map_cons,
        ih fun e he => hqueue e (List.mem_cons_of_mem first he)]

end EncounterQueue

namespace IvOffice

variable {o : IvOffice} {s : Sighting} {clock : ClockReading} {reports : List Sighting}

/-! ## One report -/

theorem step_offer_of_not_admissible (h : o.desk.admissible clock.now s = false) :
    o.step (.offer s clock) = o := by
  unfold step
  cases hasked : o.desk.canScreen s with
  | false =>
    rw [act, IvDesk.considerByClock?, hasked]
    rfl
  | true =>
    rw [act_offer hasked clock]
    cases hscreen : o.desk.screen s clock.now.seconds with
    | error a =>
      rw [IvDesk.consider, hscreen]
      rfl
    | ok rank =>
      rw [IvDesk.admissible_of_screen hasked hscreen] at h
      cases h

theorem queue_step_offer (hworks : o.store.down = []) (h : o.desk.admissible clock.now s = true) :
    (o.step (.offer s clock)).queue =
      if (o.queue.unexpired clock.now.seconds).holds s.encounter = true then
        o.queue.unexpired clock.now.seconds
      else
        (o.joined ⟨s, o.desk.rankOf s, o.desk.sequence⟩ clock.now).take o.desk.limit := by
  obtain ⟨hasked, hscreen⟩ := IvDesk.screen_of_admissible h
  unfold step
  rw [act_offer hasked clock, consider_of_rank hworks hscreen]
  split
  · rename_i hholds
    rw [enqueue_of_held (by exact hworks) hholds]
    rfl
  · rename_i hholds
    rw [enqueue_of_new (by exact hworks) (Bool.eq_false_iff.2 hholds)]
    rfl

/-- The answer `queued` is given to a sighting that comes into the queue, and to no other. -/
theorem queued_iff (h : o.Sound) (s : Sighting) (clock : ClockReading) :
    o.answer? (.offer s clock) = some (.admission .queued)
      ↔ s ∈ (o.step (.offer s clock)).queue.map (·.sighting) ∧ s ∉ o.queue.map (·.sighting) := by
  rcases added_cases h (.offer s clock) with ⟨_, entry, hoffer, -, -, hqueued, hadded⟩ |
    ⟨-, hnot, hadded⟩
  · obtain ⟨rfl, rfl⟩ := DeskOperation.offer.inj hoffer
    have hentry : entry ∈ o.added (.offer entry.sighting clock) := by
      rw [hadded]
      exact List.mem_singleton_self entry
    obtain ⟨hafter, hbefore⟩ := mem_added.1 hentry
    refine iff_of_true hqueued ⟨List.mem_map_of_mem hafter, fun hheld => hbefore ?_⟩
    cases hadmissible : o.desk.admissible clock.now entry.sighting with
    | false => rwa [step_offer_of_not_admissible hadmissible] at hafter
    | true =>
      -- an entry for the same sighting would have turned this one into a duplicate
      obtain ⟨e, he, hsame⟩ := List.mem_map.1 hheld
      have hexpired : entry.sighting.expired clock.now.seconds = false :=
        IvDesk.not_expired_of_admissible hadmissible
      have hholds : (o.queue.unexpired clock.now.seconds).holds entry.sighting.encounter = true :=
        EncounterQueue.holds_eq_true_iff.2
          ⟨e, EncounterQueue.mem_unexpired.2 ⟨he, by rw [hsame, hexpired]⟩, by rw [hsame]⟩
      rw [queue_step_offer h.works hadmissible, if_pos hholds] at hafter
      exact (EncounterQueue.mem_unexpired.1 hafter).1
  · refine iff_of_false hnot ?_
    rintro ⟨hafter, hbefore⟩
    obtain ⟨e, he, rfl⟩ := List.mem_map.1 hafter
    have hnew : e ∈ o.added (.offer e.sighting clock) :=
      mem_added.2 ⟨he, fun hold => hbefore (List.mem_map_of_mem hold)⟩
    rw [hadded] at hnew
    cases hnew

/-! ## Any list of reports -/

/-- The queue holds the best of the reports. -/
structure KeepsBest (o : IvOffice) (now : Instant) (reports : List Sighting) : Prop where
  sound : o.Sound
  queue_eq : o.queue.map (·.sighting) = o.desk.best now reports

/-- Whoever is in the queue is among the reports, sorted or not, and has not despawned. -/
theorem KeepsBest.mem_ranking (h : o.KeepsBest clock.now reports) {e : QueueEntry}
    (he : e ∈ o.queue) : e.sighting ∈ o.desk.ranking clock.now reports := by
  have hbest : e.sighting ∈ o.desk.best clock.now reports := by
    rw [← h.queue_eq]
    exact List.mem_map_of_mem he
  exact List.mem_of_mem_take hbest

theorem KeepsBest.unexpired_eq (h : o.KeepsBest clock.now reports) :
    o.queue.unexpired clock.now.seconds = o.queue := by
  refine List.filter_eq_self.2 fun e he => ?_
  have hadmissible := (IvDesk.mem_reports_of_mem_ranking (h.mem_ranking he)).2
  rw [IvDesk.not_expired_of_admissible hadmissible, Bool.not_false]

/-- A sighting that is placed goes where it belongs among the best. -/
theorem KeepsBest.map_joined (h : o.KeepsBest clock.now reports) (s : Sighting) :
    ((o.joined ⟨s, o.desk.rankOf s, o.desk.sequence⟩ clock.now).take o.desk.limit).map (·.sighting)
      = (insertByRank o.desk.rankOf s (o.desk.ranking clock.now reports)).take o.desk.limit := by
  have hranked : ∀ e ∈ o.queue,
      e.priority = o.desk.rankOf e.sighting ∧ e.sequence < o.desk.sequence := by
    intro e he
    refine ⟨?_, h.sound.numbered e he⟩
    rw [IvDesk.rankOf, (h.sound.taken e he).listed, Option.getD_some]
  rw [List.map_take, joined, h.unexpired_eq, EncounterQueue.map_place rfl hranked, h.queue_eq,
    IvDesk.best, take_insertByRank_take]

/-- One more report leaves the best in the queue. -/
theorem KeepsBest.offer (h : o.KeepsBest clock.now reports) (hsame : Consistent (reports ++ [s])) :
    (o.step (.offer s clock)).KeepsBest clock.now (reports ++ [s]) := by
  have hdesk : (o.step (.offer s clock)).desk
      = { o.desk with sequence := (o.step (.offer s clock)).desk.sequence } :=
    desk_run h.sound [.offer s clock]
  have hbest : (o.step (.offer s clock)).desk.best clock.now (reports ++ [s])
      = o.desk.best clock.now (reports ++ [s]) := by
    rw [hdesk]
    rfl
  refine ⟨h.sound.step _, ?_⟩
  rw [hbest]
  cases hadmissible : o.desk.admissible clock.now s with
  | false =>
    rw [step_offer_of_not_admissible hadmissible, h.queue_eq,
      IvDesk.best_append_of_not_admissible hadmissible]
  | true =>
    have hreport : ∀ t ∈ o.desk.ranking clock.now reports, t.encounter = s.encounter → t = s :=
      fun t ht => hsame t (List.mem_append_left _ (IvDesk.mem_reports_of_mem_ranking ht).1) s
        (List.mem_append_right _ (List.mem_singleton_self s))
    rw [queue_step_offer h.sound.works hadmissible, h.unexpired_eq]
    split
    · -- an entry for the same encounter is an entry for the same sighting
      rename_i hholds
      obtain ⟨e, he, hencounter⟩ := EncounterQueue.holds_eq_true_iff.1 hholds
      have hkept : s ∈ o.desk.best clock.now reports := by
        rw [← hreport _ (h.mem_ranking he) hencounter, ← h.queue_eq]
        exact List.mem_map_of_mem he
      rw [h.queue_eq, IvDesk.best_append_of_mem hkept]
    · rename_i hunheld
      have hnot : s ∉ o.desk.best clock.now reports := by
        intro hkept
        rw [← h.queue_eq] at hkept
        obtain ⟨e, he, rfl⟩ := List.mem_map.1 hkept
        exact hunheld (EncounterQueue.holds_eq_true_iff.2 ⟨e, he, rfl⟩)
      rw [h.map_joined, IvDesk.best_append_of_not_mem hadmissible hreport hnot]

/-- The office after sightings were offered one after another at one instant. -/
def offerAll (o : IvOffice) (clock : ClockReading) (reports : List Sighting) : IvOffice :=
  o.run (reports.map (.offer · clock))

theorem offerAll_append_singleton (o : IvOffice) (clock : ClockReading) (reports : List Sighting)
    (s : Sighting) :
    o.offerAll clock (reports ++ [s]) = (o.offerAll clock reports).step (.offer s clock) := by
  rw [offerAll, offerAll, run, run, List.map_append, List.foldl_append]
  rfl

theorem KeepsBest.offerAll {seen : List Sighting} (h : o.KeepsBest clock.now seen)
    (hsame : Consistent (seen ++ reports)) :
    (o.offerAll clock reports).KeepsBest clock.now (seen ++ reports) := by
  induction reports generalizing o seen with
  | nil =>
    rw [List.append_nil]
    exact h
  | cons s rest ih =>
    rw [List.append_cons] at hsame ⊢
    refine ih (h.offer fun t ht u hu => ?_) hsame
    exact hsame t (List.mem_append_left rest ht) u (List.mem_append_left rest hu)

/-- When sightings are offered to an empty queue while the clock stands still, and reports of one
    encounter tell the same, the queue holds the best of the first reports. Each sighting is answered
    with `queued` exactly when it comes into the queue. -/
theorem queue_eq_best (list : IvList) (area : Area) (limit : Nat) (clock : ClockReading)
    (reports : List Sighting) (hsame : Consistent reports) :
    let opened := opened list area limit
    (opened.offerAll clock reports).queue.map (·.sighting) = opened.desk.best clock.now reports
      ∧ ∀ earlier s later, reports = earlier ++ s :: later →
        ((opened.offerAll clock earlier).answer? (.offer s clock) = some (.admission .queued)
          ↔ s ∈ (opened.offerAll clock (earlier ++ [s])).queue.map (·.sighting)
            ∧ s ∉ (opened.offerAll clock earlier).queue.map (·.sighting)) := by
  intro opened
  have hopened : opened.KeepsBest clock.now [] := by
    refine ⟨sound_opened list area limit, ?_⟩
    rw [IvDesk.best, IvDesk.ranking, List.filter_nil, firstReports, sortByRank, List.mergeSort_nil,
      List.take_nil]
    rfl
  have hkept : (opened.offerAll clock reports).KeepsBest clock.now ([] ++ reports) :=
    hopened.offerAll (by rwa [List.nil_append])
  have hdesk : (opened.offerAll clock reports).desk.best clock.now reports
      = opened.desk.best clock.now reports := by
    rw [offerAll, desk_run hopened.sound]
    rfl
  refine ⟨hkept.queue_eq.trans (by rw [List.nil_append, hdesk]), fun earlier s later _ => ?_⟩
  rw [offerAll_append_singleton]
  exact queued_iff (hopened.sound.run _) s clock

/-- Species 25 goes before species 1. With a limit of one the encounter `far` is dropped for `near`,
    reported once more, and dropped again. -/
theorem queue_eq_best_reportedTwice :
    let list : IvList := ⟨"starters", [25, 1]⟩
    let area : Area := .polygons [[⟨0, 0⟩, ⟨0, 2⟩, ⟨2, 2⟩, ⟨2, 0⟩]]
    let far : Sighting := { encounter := "far", species := 1, place := ⟨1, 1⟩ }
    let near : Sighting := { encounter := "near", species := 25, place := ⟨1, 1⟩ }
    let clock : ClockReading := ⟨.ofSeconds 0, by decide⟩
    let opened := opened list area 1
    (opened.offerAll clock [far, near, far]).queue.map (·.sighting)
        = opened.desk.best clock.now [far, near, far]
      ∧ ((opened.offerAll clock [far, near]).answer? (.offer far clock) = some (.admission .queued)
        ↔ far ∈ (opened.offerAll clock [far, near, far]).queue.map (·.sighting)
          ∧ far ∉ (opened.offerAll clock [far, near]).queue.map (·.sighting)) := by
  intro list area far near clock opened
  have hsame : Consistent [far, near, far] := by
    intro s hs t ht hencounter
    simp only [List.mem_cons, List.not_mem_nil, or_false] at hs ht
    rcases hs with rfl | rfl | rfl <;> rcases ht with rfl | rfl | rfl
    all_goals first | rfl | simp [far, near] at hencounter
  have hbest := queue_eq_best list area 1 clock [far, near, far] hsame
  exact ⟨hbest.1, hbest.2 [far, near] far [] rfl⟩

end IvOffice

end ScanFleet
