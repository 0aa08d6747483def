import ScanFleet.Proofs.Iv.Operations

set_option autoImplicit false

/-! # Where the entries of a queue come from and where they go

Every admission that is answered with `queued` brings one entry, and nothing else brings any
(`IvOffice.arrivals`). An entry leaves in one of five ways (`Departure`), each told by what can be
seen of an operation. The main statement is that through any run of an office that opens without
entries the books are balanced: each entry that arrived is either in the queue or left it at one
operation, in one way, and does not come back. -/

namespace ScanFleet

/-- A way for an entry to leave the queue. -/
inductive Departure where
  /-- It was handed out. -/
  | handedOut
  /-- Its check came in. -/
  | checked
  /-- Its creature had despawned. -/
  | expired
  /-- It was pushed past the limit. -/
  | displaced
  /-- The whole queue was forgotten. -/
  | forgotten
  deriving DecidableEq

namespace IvOffice

/-- The entries that an operation brings. -/
def added (o : IvOffice) (operation : DeskOperation) : List QueueEntry :=
  (o.step operation).queue.filter (· ∉ o.queue)

/-- The entries that a run brings, in the order in which they came. -/
def arrivals (o : IvOffice) : List DeskOperation → List QueueEntry
  | [] => []
  | operation :: rest => o.added operation ++ (o.step operation).arrivals rest

/-- The instant as of which an operation drops what has despawned: handing out always does, and
    admitting does when the sighting gets as far as the queue. -/
def PrunesAt (o : IvOffice) (now : Instant) : DeskOperation → Prop
  | .offer s clock => clock.now = now ∧ Reached (o.answer? (.offer s clock))
  | .next clock => clock.now = now
  | .record _ _ => False
  | .reset => False

/-- Whether an operation makes an entry leave in a given way. -/
def Leaves (o : IvOffice) (operation : DeskOperation) (e : QueueEntry) : Departure → Prop
  | .handedOut =>
    (∃ clock, operation = .next clock) ∧ o.answer? operation = some (.handed (some e.sighting))
  | .checked => ∃ s clock, operation = .record s clock ∧ s.encounter = e.sighting.encounter
      ∧ o.answer? operation = some (.recorded true)
  | .expired => ∃ now, o.PrunesAt now operation ∧ e.sighting.expired now.seconds = true
  | .displaced => ∃ s clock, operation = .offer s clock
      ∧ o.answer? operation = some (.admission .queued)
      ∧ e.sighting.expired clock.now.seconds = false
      ∧ (o.step operation).queue.length = o.desk.limit
      ∧ ∀ kept ∈ (o.step operation).queue, kept.Before e
  | .forgotten => operation = .reset

/-- At an operation of a run an entry is in the queue, and leaves it in a given way. -/
def DepartsAt (o : IvOffice) (operations : List DeskOperation) (e : QueueEntry) (i : Nat)
    (d : Departure) : Prop :=
  ∃ operation, operations[i]? = some operation ∧ e ∈ (o.run (operations.take i)).queue
    ∧ (o.run (operations.take i)).Leaves operation e d

/-- After a run an entry is in the queue and never left it, or it is not and left it once, in one
    way. -/
def Accounts (o : IvOffice) (operations : List DeskOperation) (e : QueueEntry) : Prop :=
  e ∈ (o.run operations).queue ∧ (∀ i d, ¬ o.DepartsAt operations e i d)
    ∨ e ∉ (o.run operations).queue ∧ ∃ i d, o.DepartsAt operations e i d
      ∧ ∀ j d', o.DepartsAt operations e j d' → j = i ∧ d' = d

variable {o : IvOffice}

/-! ## Entries that arrive -/

theorem mem_added {operation : DeskOperation} {e : QueueEntry} :
    e ∈ o.added operation ↔ e ∈ (o.step operation).queue ∧ e ∉ o.queue := by
  simp [added]

theorem added_eq_nil {operation : DeskOperation}
    (h : ∀ e ∈ (o.step operation).queue, e ∈ o.queue) : o.added operation = [] := by
  rw [List.eq_nil_iff_forall_not_mem]
  intro e he
  obtain ⟨hafter, hnot⟩ := mem_added.1 he
  exact hnot (h e hafter)

/-- An entry with a number that is not used yet is not in the queue. -/
theorem Sound.not_mem_of_le (h : o.Sound) {e : QueueEntry} (he : o.desk.sequence ≤ e.sequence) :
    e ∉ o.queue := by
  intro hmem
  have hlt := h.numbered e hmem
  omega

/-- An admission that is answered with `queued` brings its own entry, which gets the next number;
    nothing else brings any. -/
theorem added_cases (h : o.Sound) (operation : DeskOperation) :
    (∃ clock entry, operation = .offer entry.sighting clock ∧ entry.sequence = o.desk.sequence
        ∧ (o.step operation).desk.sequence = o.desk.sequence + 1
        ∧ o.answer? operation = some (.admission .queued) ∧ o.added operation = [entry])
      ∨ o.desk.sequence ≤ (o.step operation).desk.sequence
        ∧ o.answer? operation ≠ some (.admission .queued) ∧ o.added operation = [] := by
  have houtcome := outcome h.works operation
  generalize hanswer : o.answer? operation = answer at houtcome ⊢
  generalize hstep : o.step operation = after at houtcome ⊢
  cases houtcome with
  | turnedAway hnot =>
    refine .inr ⟨Nat.le_refl _, ?_, added_eq_nil (by rw [hstep]; exact fun e he => he)⟩
    rintro rfl
    exact hnot ⟨_, rfl, .inl rfl⟩
  | doubled =>
    refine .inr ⟨Nat.le_succ _, by simp, added_eq_nil ?_⟩
    rw [hstep]
    exact (EncounterQueue.unexpired_sublist _ _).subset
  | @entered s clock entry queue hsighting hnumber htakes hnew hqueue =>
    subst hsighting
    have hfresh : entry ∉ o.queue := h.not_mem_of_le (Nat.le_of_eq hnumber.symm)
    -- of all entries that are placed, only the new one was not queued before
    have hplaced : (o.joined entry clock.now).filter (· ∉ o.queue) = [entry] := by
      rw [← List.perm_singleton]
      refine ((EncounterQueue.place_perm entry _).filter _).trans ?_
      rw [List.filter_cons_of_pos (by simpa using hfresh)]
      have hnone : (o.queue.unexpired clock.now.seconds).filter (· ∉ o.queue) = [] := by
        rw [List.filter_eq_nil_iff]
        intro e he
        simpa using (EncounterQueue.mem_unexpired.1 he).1
      rw [hnone]
    by_cases hkept : entry ∈ queue
    · refine .inl ⟨clock, entry, rfl, hnumber, rfl, by rw [if_pos hkept], ?_⟩
      have hmem : entry ∈ o.added (.offer entry.sighting clock) :=
        mem_added.2 ⟨by rw [hstep]; exact hkept, hfresh⟩
      have hadded : List.Sublist (o.added (.offer entry.sighting clock)) [entry] := by
        rw [← hplaced, added, hstep, hqueue]
        exact (List.take_sublist _ _).filter _
      exact hadded.eq_of_length_le (List.length_pos_of_mem hmem)
    · refine .inr ⟨Nat.le_succ _, by simp [hkept], added_eq_nil ?_⟩
      rw [hstep]
      intro e he
      rcases EncounterQueue.mem_place.1 (List.mem_of_mem_take (hqueue ▸ he)) with rfl | hold
      · exact absurd he hkept
      · exact (EncounterQueue.mem_unexpired.1 hold).1
  | passedOver hnot =>
    refine .inr ⟨Nat.le_refl _, ?_, added_eq_nil (by rw [hstep]; exact fun e he => he)⟩
    rcases hnot with rfl | rfl
    · simp
    · simp
  | checked =>
    refine .inr ⟨Nat.le_refl _, by simp, added_eq_nil ?_⟩
    rw [hstep]
    exact List.eraseP_sublist.subset
  | handed =>
    refine .inr ⟨Nat.le_refl _, by simp, added_eq_nil ?_⟩
    rw [hstep]
    exact ((List.tail_sublist _).trans (EncounterQueue.unexpired_sublist _ _)).subset
  | forgotten =>
    refine .inr ⟨Nat.le_refl _, by simp, added_eq_nil ?_⟩
    rw [hstep]
    intro e he
    cases he

theorem sequence_le_step (h : o.Sound) (operation : DeskOperation) :
    o.desk.sequence ≤ (o.step operation).desk.sequence := by
  rcases added_cases h operation with ⟨_, _, _, _, hnext, -⟩ | ⟨hle, -⟩
  · omega
  · exact hle

/-- The entries of a run come in the order of their numbers. -/
theorem arrivals_ascending (h : o.Sound) (operations : List DeskOperation) :
    (o.arrivals operations).Pairwise (fun a b => a.sequence < b.sequence)
      ∧ ∀ e ∈ o.arrivals operations, o.desk.sequence ≤ e.sequence := by
  induction operations generalizing o with
  | nil =>
    refine ⟨.nil, fun e he => ?_⟩
    cases he
  | cons operation rest ih =>
    obtain ⟨hascending, hlater⟩ := ih (h.step operation)
    rw [arrivals]
    rcases added_cases h operation with
      ⟨_, entry, _, hnumber, hnext, -, hadded⟩ | ⟨hle, -, hadded⟩
    · rw [hadded]
      refine ⟨List.pairwise_cons.2 ⟨fun e he => ?_, hascending⟩, fun e he => ?_⟩
      · have := hlater e he
        omega
      · rcases List.mem_cons.1 he with rfl | he
        · omega
        · have := hlater e he
          omega
    · rw [hadded, List.nil_append]
      exact ⟨hascending, fun e he => Nat.le_trans hle (hlater e he)⟩

theorem mem_arrivals_of_mem_run {operations : List DeskOperation} {e : QueueEntry}
    (he : e ∈ (o.run operations).queue) : e ∈ o.queue ∨ e ∈ o.arrivals operations := by
  induction operations generalizing o with
  | nil => exact .inl he
  | cons operation rest ih =>
    rw [arrivals, List.mem_append]
    rcases ih he with hstep | hlater
    · by_cases hold : e ∈ o.queue
      · exact .inl hold
      · exact .inr (.inl (mem_added.2 ⟨hstep, hold⟩))
    · exact .inr (.inr hlater)

/-- Of two entries the one with the lower number came first. -/
theorem sublist_of_lt {entries : List QueueEntry}
    (h : entries.Pairwise fun a b => a.sequence < b.sequence) {a b : QueueEntry}
    (ha : a ∈ entries) (hb : b ∈ entries) (hlt : a.sequence < b.sequence) :
    List.Sublist [a, b] entries := by
  induction entries with
  | nil => cases ha
  | cons first rest ih =>
    obtain ⟨hfirst, hrest⟩ := List.pairwise_cons.1 h
    rcases List.mem_cons.1 hb with rfl | hb'
    · rcases List.mem_cons.1 ha with rfl | ha'
      · omega
      · have := hfirst a ha'
        omega
    · rcases List.mem_cons.1 ha with rfl | ha'
      · exact (List.singleton_sublist.2 hb').cons_cons a
      · exact (ih hrest ha' hb').cons first

/-! ## Entries that leave -/

theorem eq_of_length_le_one {entries : List QueueEntry} (h : entries.length ≤ 1) {a b : QueueEntry}
    (ha : a ∈ entries) (hb : b ∈ entries) : a = b := by
  match entries, h with
  | [_], _ => exact (List.mem_singleton.1 ha).trans (List.mem_singleton.1 hb).symm

/-- An entry of the queue stays at an operation, or there is a way in which it leaves. -/
theorem stays_or_leaves (h : o.Sound) {e : QueueEntry} (he : e ∈ o.queue)
    (operation : DeskOperation) :
    e ∈ (o.step operation).queue ∨ ∃ d, o.Leaves operation e d := by
  have houtcome := outcome h.works operation
  generalize hanswer : o.answer? operation = answer at houtcome
  generalize hstep : o.step operation = after at houtcome ⊢
  cases houtcome with
  | turnedAway => exact .inl he
  | @doubled s clock =>
    cases hexpired : e.sighting.expired clock.now.seconds with
    | false => exact .inl (EncounterQueue.mem_unexpired.2 ⟨he, hexpired⟩)
    | true => exact .inr ⟨.expired, clock.now, ⟨rfl, _, hanswer, .inr (.inl rfl)⟩, hexpired⟩
  | @entered s clock entry queue hsighting hnumber htakes hnew hqueue =>
    have hreached : Reached (o.answer? (.offer s clock)) := by
      refine ⟨_, hanswer, ?_⟩
      split
      · exact .inl rfl
      · exact .inr (.inr rfl)
    cases hexpired : e.sighting.expired clock.now.seconds with
    | true => exact .inr ⟨.expired, clock.now, ⟨rfl, hreached⟩, hexpired⟩
    | false =>
      have hjoined : e ∈ o.joined entry clock.now :=
        EncounterQueue.mem_place.2 (.inr (EncounterQueue.mem_unexpired.2 ⟨he, hexpired⟩))
      rw [← List.take_append_drop o.desk.limit (o.joined entry clock.now),
        List.mem_append] at hjoined
      rcases hjoined with hkept | hdropped
      · exact .inl (hqueue ▸ hkept)
      · right
        obtain ⟨hfull, hbefore⟩ :=
          EncounterQueue.before_of_mem_drop (h.joined_ordered hnumber) hdropped
        -- the queue was short enough, so that only one entry is dropped
        have hone : ((o.joined entry clock.now).drop o.desk.limit).length ≤ 1 := by
          have hlength := (EncounterQueue.unexpired_sublist o.queue clock.now.seconds).length_le
          have hbounded := h.bounded
          rw [List.length_drop, joined, EncounterQueue.length_place]
          omega
        have hkept : entry ∈ queue := by
          have hin : entry ∈ o.joined entry clock.now := EncounterQueue.mem_place.2 (.inl rfl)
          rw [← List.take_append_drop o.desk.limit (o.joined entry clock.now),
            List.mem_append] at hin
          rcases hin with hin | hin
          · exact hqueue ▸ hin
          · have hsame : entry = e := eq_of_length_le_one hone hin hdropped
            exact absurd (hsame ▸ he) (h.not_mem_of_le (Nat.le_of_eq hnumber.symm))
        refine ⟨.displaced, s, clock, rfl, ?_, hexpired, ?_⟩
        · rw [hanswer, if_pos hkept]
        · rw [hstep]
          show queue.length = _ ∧ ∀ kept ∈ queue, _
          rw [hqueue]
          exact ⟨hfull, hbefore⟩
  | passedOver => exact .inl he
  | @checked s clock =>
    by_cases hsame : e.sighting.encounter = s.encounter
    · refine .inr ⟨.checked, s, clock, rfl, hsame.symm, ?_⟩
      rw [hanswer, EncounterQueue.holds_eq_true_iff.2 ⟨e, he, hsame⟩]
    · exact .inl (EncounterQueue.mem_erase_of_ne he hsame)
  | @handed clock =>
    cases hexpired : e.sighting.expired clock.now.seconds with
    | true => exact .inr ⟨.expired, clock.now, rfl, hexpired⟩
    | false =>
      have hin := EncounterQueue.mem_unexpired.2 ⟨he, hexpired⟩
      cases hqueue : o.queue.unexpired clock.now.seconds with
      | nil =>
        rw [hqueue] at hin
        cases hin
      | cons first rest =>
        rw [hqueue] at hin hanswer
        rcases List.mem_cons.1 hin with rfl | hin
        · exact .inr ⟨.handedOut, ⟨clock, rfl⟩, hanswer⟩
        · exact .inl hin
  | forgotten => exact .inr ⟨.forgotten, rfl⟩

/-- What despawned as of the instant of an operation is not in the queue after it. -/
theorem not_expired_of_prunes (h : o.Sound) {e : QueueEntry} (he : e ∈ o.queue)
    {operation : DeskOperation} {now : Instant} (hprunes : o.PrunesAt now operation)
    (hstays : e ∈ (o.step operation).queue) : e.sighting.expired now.seconds = false := by
  have houtcome := outcome h.works operation
  cases operation with
  | offer s clock =>
    obtain ⟨rfl, hreached⟩ := hprunes
    generalize o.answer? (.offer s clock) = answer at houtcome hreached
    generalize o.step (.offer s clock) = after at houtcome hstays
    cases houtcome with
    | turnedAway hnot => exact absurd hreached hnot
    | doubled => exact (EncounterQueue.mem_unexpired.1 hstays).2
    | entered hsighting hnumber htakes hnew hqueue =>
      subst hqueue
      rcases EncounterQueue.mem_place.1 (List.mem_of_mem_take hstays) with rfl | hold
      · exact absurd he (h.not_mem_of_le (Nat.le_of_eq hnumber.symm))
      · exact (EncounterQueue.mem_unexpired.1 hold).2
  | next clock =>
    obtain rfl : clock.now = now := hprunes
    generalize o.answer? (.next clock) = answer at houtcome
    generalize o.step (.next clock) = after at houtcome hstays
    cases houtcome
    exact (EncounterQueue.mem_unexpired.1 (List.mem_of_mem_tail hstays)).2
  | record s clock => exact hprunes.elim
  | reset => exact hprunes.elim

/-- What is handed out is the first entry that has not despawned. -/
theorem handed_of_next (h : o.Sound) {clock : ClockReading} {s : Sighting}
    (hanswer : o.answer? (.next clock) = some (.handed (some s))) :
    ∃ first rest, o.queue.unexpired clock.now.seconds = first :: rest ∧ first.sighting = s
      ∧ (o.step (.next clock)).queue = rest := by
  have houtcome := outcome h.works (.next clock)
  generalize o.answer? (.next clock) = answer at houtcome hanswer
  generalize o.step (.next clock) = after at houtcome ⊢
  cases houtcome
  cases hqueue : o.queue.unexpired clock.now.seconds with
  | nil =>
    rw [hqueue] at hanswer
    simp at hanswer
  | cons first rest =>
    rw [hqueue] at hanswer
    exact ⟨first, rest, rfl, by simpa using hanswer, rfl⟩

/-- An entry that leaves at an operation is not in the queue afterwards. -/
theorem Leaves.gone (h : o.Sound) {e : QueueEntry} (he : e ∈ o.queue) {operation : DeskOperation}
    {d : Departure} (hleaves : o.Leaves operation e d) : e ∉ (o.step operation).queue := by
  intro hstays
  cases d with
  | handedOut =>
    obtain ⟨⟨clock, rfl⟩, hanswer⟩ := hleaves
    obtain ⟨first, rest, hqueue, hsighting, hafter⟩ := handed_of_next h hanswer
    -- the entry at the front has the same encounter, so that it cannot be in the queue twice
    have hdistinct : EncounterQueue.Distinct (first :: rest) :=
      hqueue ▸ (h.unexpired clock.now).distinct
    refine (List.pairwise_cons.1 hdistinct).1 e (hafter ▸ hstays) ?_
    rw [hsighting]
  | checked =>
    obtain ⟨s, clock, rfl, hsame, hrecorded⟩ := hleaves
    have houtcome := outcome h.works (.record s clock)
    generalize o.answer? (.record s clock) = answer at houtcome hrecorded
    generalize o.step (.record s clock) = after at houtcome hstays
    cases houtcome with
    | passedOver hnot => simp [hrecorded] at hnot
    | checked => exact h.distinct.encounter_ne_of_mem_erase hstays hsame.symm
  | expired =>
    obtain ⟨now, hprunes, hexpired⟩ := hleaves
    rw [not_expired_of_prunes h he hprunes hstays] at hexpired
    cases hexpired
  | displaced =>
    obtain ⟨s, clock, rfl, -, -, -, hbefore⟩ := hleaves
    exact e.not_before_self (hbefore e hstays)
  | forgotten =>
    obtain rfl : operation = .reset := hleaves
    have houtcome := outcome h.works .reset
    generalize o.answer? .reset = answer at houtcome
    generalize o.step .reset = after at houtcome hstays
    cases houtcome
    cases hstays

/-- The ways in which an operation can make an entry leave. -/
theorem Leaves.possible {e : QueueEntry} {operation : DeskOperation} {d : Departure}
    (h : o.Leaves operation e d) :
    match operation with
    | .offer _ _ => d = .expired ∨ d = .displaced
    | .record _ _ => d = .checked
    | .next _ => d = .expired ∨ d = .handedOut
    | .reset => d = .forgotten := by
  cases d with
  | handedOut =>
    obtain ⟨⟨clock, rfl⟩, -⟩ := h
    exact .inr rfl
  | checked =>
    obtain ⟨s, clock, rfl, -⟩ := h
    rfl
  | expired =>
    obtain ⟨now, hprunes, -⟩ := h
    cases operation with
    | offer s clock => exact .inl rfl
    | record s clock => exact hprunes.elim
    | next clock => exact .inl rfl
    | reset => exact hprunes.elim
  | displaced =>
    obtain ⟨s, clock, rfl, -⟩ := h
    exact .inr rfl
  | forgotten =>
    obtain rfl : operation = .reset := h
    rfl

theorem not_expired_of_displaced {e : QueueEntry} {operation : DeskOperation}
    (h : o.Leaves operation e .displaced) : ¬ o.Leaves operation e .expired := by
  obtain ⟨s, clock, rfl, -, hlasts, -⟩ := h
  rintro ⟨now, ⟨rfl, -⟩, hexpired⟩
  rw [hlasts] at hexpired
  cases hexpired

theorem not_expired_of_handedOut (h : o.Sound) {e : QueueEntry} {operation : DeskOperation}
    (hhanded : o.Leaves operation e .handedOut) : ¬ o.Leaves operation e .expired := by
  obtain ⟨⟨clock, rfl⟩, hanswer⟩ := hhanded
  rintro ⟨now, hnow, hexpired⟩
  obtain rfl : clock.now = now := hnow
  obtain ⟨first, rest, hqueue, hsighting, -⟩ := handed_of_next h hanswer
  have hfirst : first ∈ o.queue.unexpired clock.now.seconds := hqueue ▸ List.mem_cons_self
  rw [← hsighting, (EncounterQueue.mem_unexpired.1 hfirst).2] at hexpired
  cases hexpired

/-- An entry leaves at an operation in one way at most. -/
theorem Leaves.unique (h : o.Sound) {e : QueueEntry} {operation : DeskOperation} {c d : Departure}
    (hc : o.Leaves operation e c) (hd : o.Leaves operation e d) : c = d := by
  have hcs := hc.possible
  have hds := hd.possible
  cases operation with
  | offer s clock =>
    rcases hcs with rfl | rfl
    · rcases hds with rfl | rfl
      · rfl
      · exact absurd hc (not_expired_of_displaced hd)
    · rcases hds with rfl | rfl
      · exact absurd hd (not_expired_of_displaced hc)
      · rfl
  | record s clock => exact hcs.trans hds.symm
  | next clock =>
    rcases hcs with rfl | rfl
    · rcases hds with rfl | rfl
      · rfl
      · exact absurd hc (not_expired_of_handedOut h hd)
    · rcases hds with rfl | rfl
      · exact absurd hd (not_expired_of_handedOut h hc)
      · rfl
  | reset => exact hcs.trans hds.symm

/-! ## The books of a run -/

theorem departsAt_cons_zero {operation : DeskOperation} {rest : List DeskOperation}
    {e : QueueEntry} {d : Departure} :
    o.DepartsAt (operation :: rest) e 0 d ↔ e ∈ o.queue ∧ o.Leaves operation e d := by
  simp [DepartsAt, run]

theorem departsAt_cons_succ {operation : DeskOperation} {rest : List DeskOperation}
    {e : QueueEntry} {i : Nat} {d : Departure} :
    o.DepartsAt (operation :: rest) e (i + 1) d ↔ (o.step operation).DepartsAt rest e i d := by
  simp [DepartsAt, run]

/-- An entry that is not in the queue and had its number already does not come back. -/
theorem not_mem_run (h : o.Sound) {e : QueueEntry} (hgone : e ∉ o.queue)
    (hnumber : e.sequence < o.desk.sequence) (operations : List DeskOperation) :
    e ∉ (o.run operations).queue := by
  intro hback
  rcases mem_arrivals_of_mem_run hback with hqueue | harrived
  · exact hgone hqueue
  · have hle := (arrivals_ascending h operations).2 e harrived
    omega

theorem not_departsAt (h : o.Sound) {e : QueueEntry} (hgone : e ∉ o.queue)
    (hnumber : e.sequence < o.desk.sequence) (operations : List DeskOperation) (i : Nat)
    (d : Departure) : ¬ o.DepartsAt operations e i d := by
  rintro ⟨operation, -, hback, -⟩
  exact not_mem_run h hgone hnumber _ hback

/-- An entry that does not leave at the first operation is accounted for as in the rest of the run. -/
theorem Accounts.cons {operation : DeskOperation} {rest : List DeskOperation} {e : QueueEntry}
    (h : (o.step operation).Accounts rest e)
    (hfirst : ∀ d, ¬ o.DepartsAt (operation :: rest) e 0 d) : o.Accounts (operation :: rest) e := by
  rcases h with ⟨hmem, hnever⟩ | ⟨hgone, i, d, hdeparts, honly⟩
  · refine .inl ⟨hmem, fun i d => ?_⟩
    cases i with
    | zero => exact hfirst d
    | succ i => exact fun hd => hnever i d (departsAt_cons_succ.1 hd)
  · refine .inr ⟨hgone, i + 1, d, departsAt_cons_succ.2 hdeparts, fun j c hc => ?_⟩
    cases j with
    | zero => exact absurd hc (hfirst c)
    | succ j =>
      obtain ⟨rfl, rfl⟩ := honly j c (departsAt_cons_succ.1 hc)
      exact ⟨rfl, rfl⟩

theorem accounts_of_mem (h : o.Sound) {e : QueueEntry} (he : e ∈ o.queue)
    (operations : List DeskOperation) : o.Accounts operations e := by
  induction operations generalizing o with
  | nil =>
    refine .inl ⟨he, ?_⟩
    rintro i d ⟨operation, habsurd, -⟩
    cases habsurd
  | cons operation rest ih =>
    have hnext := h.step operation
    rcases stays_or_leaves h he operation with hstays | ⟨d, hleaves⟩
    · refine (ih hnext hstays).cons fun d hd => ?_
      exact (departsAt_cons_zero.1 hd).2.gone h he hstays
    · have hgone := hleaves.gone h he
      have hnumber : e.sequence < (o.step operation).desk.sequence :=
        Nat.lt_of_lt_of_le (h.numbered e he) (sequence_le_step h operation)
      refine .inr ⟨not_mem_run hnext hgone hnumber rest, 0, d,
        departsAt_cons_zero.2 ⟨he, hleaves⟩, fun j c hc => ?_⟩
      cases j with
      | zero => exact ⟨rfl, (departsAt_cons_zero.1 hc).2.unique h hleaves⟩
      | succ j => exact absurd (departsAt_cons_succ.1 hc) (not_departsAt hnext hgone hnumber rest j c)

theorem accounts_of_mem_arrivals (h : o.Sound) {operations : List DeskOperation} {e : QueueEntry}
    (he : e ∈ o.arrivals operations) : o.Accounts operations e := by
  induction operations generalizing o with
  | nil => cases he
  | cons operation rest ih =>
    -- before it arrives the entry is not there to leave
    have hnew : e ∉ o.queue := h.not_mem_of_le ((arrivals_ascending h (operation :: rest)).2 e he)
    have hfirst : ∀ d, ¬ o.DepartsAt (operation :: rest) e 0 d := fun d hd =>
      hnew (departsAt_cons_zero.1 hd).1
    rcases List.mem_append.1 he with hadded | hlater
    · exact (accounts_of_mem (h.step operation) (mem_added.1 hadded).1 rest).cons hfirst
    · exact (ih (h.step operation) hlater).cons hfirst

/-! ## Any run of an office -/

/-- What is promised of a queue: it is within the limit, holds no encounter twice, and stands in order
    of the ranks, of two entries of one rank the one in front that arrived first. Every species in it
    is listed, every place is inside the area, and no individual values are known. -/
structure Orderly (list : IvList) (area : Area) (limit : Nat) (arrivals : List QueueEntry)
    (queue : EncounterQueue) : Prop where
  bounded : queue.length ≤ limit
  distinct : queue.Distinct
  ordered : queue.Pairwise fun a b =>
    a.priority < b.priority ∨ a.priority = b.priority ∧ List.Sublist [a, b] arrivals
  listed : ∀ e ∈ queue, list.rank? e.sighting.species = some e.priority
  inside : ∀ e ∈ queue, area.contains? e.sighting.place = some true
  unchecked : ∀ e ∈ queue, e.sighting.iv = none

/-- The desk follows one list, one area and one limit throughout. -/
theorem desk_run (h : o.Sound) (operations : List DeskOperation) :
    (o.run operations).desk = { o.desk with sequence := (o.run operations).desk.sequence } := by
  induction operations generalizing o with
  | nil => rfl
  | cons operation rest ih =>
    have hstep : (o.step operation).desk
        = { o.desk with sequence := (o.step operation).desk.sequence } := by
      have houtcome := outcome h.works operation
      generalize o.answer? operation = answer at houtcome
      generalize o.step operation = after at houtcome ⊢
      cases houtcome
      all_goals rfl
    rw [run, List.foldl_cons, ← run, ih (h.step operation), hstep]

theorem orderly_run (list : IvList) (area : Area) (limit : Nat) (operations : List DeskOperation) :
    Orderly list area limit ((opened list area limit).arrivals operations)
      ((opened list area limit).run operations).queue := by
  have hopened := sound_opened list area limit
  have h := hopened.run operations
  have hdesk := desk_run hopened operations
  have hascending := (arrivals_ascending hopened operations).1
  have harrived : ∀ e ∈ ((opened list area limit).run operations).queue,
      e ∈ (opened list area limit).arrivals operations := by
    intro e he
    rcases mem_arrivals_of_mem_run he with hfirst | harrived
    · cases hfirst
    · exact harrived
  refine ⟨?_, h.distinct, ?_, fun e he => ?_, fun e he => ?_, fun e he => (h.taken e he).unchecked⟩
  · have hbounded := h.bounded
    rwa [hdesk] at hbounded
  · refine h.ordered.imp_of_mem fun {a b} ha hb hbefore => ?_
    rcases hbefore with hrank | ⟨hsame, hnumber⟩
    · exact .inl hrank
    · exact .inr ⟨hsame, sublist_of_lt hascending (harrived a ha) (harrived b hb) hnumber⟩
  · have hlisted := (h.taken e he).listed
    rwa [hdesk] at hlisted
  · have hinside := (h.taken e he).inside
    rwa [hdesk] at hinside

/-- Through any run of an office that opens without entries, the queue is orderly. An admission that is
    answered with `queued` brings one entry, its own, and nothing else brings any. Each entry that
    arrived is in the queue, or left it once and in one way. The next encounter is the first one
    that has not despawned, and none that has is left behind. -/
theorem balanced_run (list : IvList) (area : Area) (limit : Nat) (operations : List DeskOperation) :
    let opened := opened list area limit
    let o := opened.run operations
    Orderly list area limit (opened.arrivals operations) o.queue
      ∧ (∀ operation, o.answer? operation = some (.admission .queued)
          ∧ (∃ clock entry, operation = .offer entry.sighting clock ∧ o.added operation = [entry])
        ∨ o.answer? operation ≠ some (.admission .queued) ∧ o.added operation = [])
      ∧ (∀ e ∈ opened.arrivals operations, opened.Accounts operations e)
      ∧ ∀ clock : ClockReading,
        o.answer? (.next clock) = some (.handed
            ((o.queue.find? fun e => !e.sighting.expired clock.now.seconds).map (·.sighting)))
          ∧ ∀ e ∈ (o.step (.next clock)).queue, e.sighting.expired clock.now.seconds = false := by
  intro opened o
  have hopened : opened.Sound := sound_opened list area limit
  have h : o.Sound := hopened.run operations
  refine ⟨orderly_run list area limit operations, fun operation => ?_,
    fun e he => accounts_of_mem_arrivals hopened he, fun clock => ?_⟩
  · rcases added_cases h operation with ⟨clock, entry, hoffer, -, -, hqueued, hadded⟩ |
      ⟨-, hnot, hadded⟩
    · exact .inl ⟨hqueued, clock, entry, hoffer, hadded⟩
    · exact .inr ⟨hnot, hadded⟩
  · have houtcome := outcome h.works (.next clock)
    generalize o.answer? (.next clock) = answer at houtcome ⊢
    generalize o.step (.next clock) = after at houtcome ⊢
    cases houtcome
    refine ⟨?_, fun e he => (EncounterQueue.mem_unexpired.1 (List.mem_of_mem_tail he)).2⟩
    rw [EncounterQueue.unexpired, List.head?_filter]

end IvOffice

end ScanFleet
