import ScanFleet.Proofs.Iv.Operations
import ScanFleet.Proofs.Job.Run

set_option autoImplicit false

/-! # The encounters that wait at a job

A job that is built for individual values has a desk for its own area and a store without faults.
Whatever the job is asked, it keeps both, and queues no encounter twice (`Job.Orderly`). So a check that
is reported to it takes out exactly the entries of the checked encounter, provided that the check was
made inside the area of the job, and leaves all others in their order. -/

namespace ScanFleet

namespace IvDesk

/-- The desk works for an area, over a store without faults that queues no encounter twice. -/
structure Tends (desk : IvDesk) (store : EncounterStore) (area : Area) : Prop where
  area_eq : desk.area = area
  works : store.down = []
  distinct : store.queue.Distinct

namespace Tends

variable {desk : IvDesk} {store : EncounterStore} {area : Area}

/-- Of the desk only the area matters, and of the store only a part of the queue may be left. -/
theorem of_sublist (h : desk.Tends store area) {later : IvDesk} {kept : EncounterStore}
    (harea : later.area = desk.area) (hworks : kept.down = store.down)
    (hqueue : List.Sublist kept.queue store.queue) : later.Tends kept area where
  area_eq := harea.trans h.area_eq
  works := hworks.trans h.works
  distinct := h.distinct.sublist hqueue

theorem offer (h : desk.Tends store area) (s : Sighting) (now : Instant) :
    (desk.offer store s now).1.Tends (desk.offer store s now).2 area := by
  unfold IvDesk.offer
  cases hscreen : desk.screen s now.seconds with
  | error admission =>
    rw [IvDesk.consider, hscreen]
    exact h
  | ok rank =>
    have hkept : desk.Tends { store with queue := store.queue.unexpired now.seconds } area :=
      h.of_sublist rfl rfl (store.queue.unexpired_sublist now.seconds)
    rw [IvOffice.consider_of_rank h.works hscreen]
    cases hheld : (store.queue.unexpired now.seconds).holds s.encounter with
    | true =>
      rw [IvOffice.enqueue_of_held hkept.works hheld]
      exact hkept.of_sublist rfl rfl (.refl _)
    | false =>
      rw [IvOffice.enqueue_of_new hkept.works hheld]
      refine ⟨h.area_eq, h.works, ?_⟩
      exact (hkept.distinct.place hheld).sublist (List.take_sublist _ _)

/-- What is left of the queue when a check is reported. -/
theorem queue_note (h : desk.Tends store area) (s : Sighting) (now : Instant) :
    (desk.note store s now).down = store.down ∧ (desk.note store s now).queue
      = if area.contains s.place then store.queue.filter fun e => e.sighting.encounter != s.encounter
        else store.queue := by
  unfold IvDesk.note
  cases hinside : desk.area.contains s.place with
  | true =>
    rw [IvOffice.recordIv_of_inside h.works hinside, ← h.area_eq, hinside, if_pos rfl]
    exact ⟨rfl, h.distinct.remove_snd s.encounter⟩
  | false =>
    rw [IvDesk.recordIv, hinside, ← h.area_eq, hinside, if_neg Bool.false_ne_true]
    exact ⟨rfl, rfl⟩

theorem note (h : desk.Tends store area) (s : Sighting) (now : Instant) :
    desk.Tends (desk.note store s now) area := by
  obtain ⟨hworks, hqueue⟩ := h.queue_note s now
  refine h.of_sublist rfl hworks ?_
  rw [hqueue]
  split
  · exact List.filter_sublist
  · exact .refl _

/-- An encounter that is handed out leaves the queue, with those that have despawned. -/
theorem nextTask (h : desk.Tends store area) (minLevel maxLevel : UInt8) (now : Instant) :
    desk.Tends (IvDesk.nextTask store minLevel maxLevel now).2 area := by
  have hnext : (IvDesk.nextTask store minLevel maxLevel now).2 = (IvDesk.next store now).2 := by
    unfold IvDesk.nextTask
    split
    · rename_i heq
      rw [heq]
    · rename_i heq
      rw [heq]
  rw [hnext, IvOffice.next_eq h.works]
  refine h.of_sublist rfl rfl ?_
  exact (List.tail_sublist _).trans (store.queue.unexpired_sublist now.seconds)

theorem reset (h : desk.Tends store area) : desk.Tends (IvDesk.reset store) area := by
  unfold IvDesk.reset EncounterStore.clear
  rw [IvOffice.guard_eq h.works]
  exact h.of_sublist rfl rfl (List.nil_sublist _)

/-- Counting the checks of the last hour leaves the queue alone. -/
theorem status (h : desk.Tends store area) (now : Instant) :
    desk.Tends (desk.status store now).2 area := by
  unfold IvDesk.status IvDesk.queue IvDesk.checksPerHour EncounterStore.snapshot
    EncounterStore.checksSince
  dsimp only
  rw [IvOffice.guard_eq h.works, IvOffice.guard_eq h.works]
  exact h.of_sublist rfl rfl (.refl _)

end Tends

end IvDesk

namespace Job

/-- If the job keeps an encounter queue, its desk tends the queue for the area of the job. -/
def Orderly (j : Job) : Prop :=
  ∀ desk store, j.duty = .encounters desk store → desk.Tends store j.area

/-- The queue of the job; none waits at a job without a queue. -/
def waiting (j : Job) : EncounterQueue :=
  match j.duty with
  | .encounters _ store => store.queue
  | _ => []

variable {j k : Job}

theorem Orderly.of_eq (h : j.Orderly) (harea : k.area = j.area) (hduty : k.duty = j.duty) :
    k.Orderly := by
  intro desk store hk
  rw [harea]
  exact h desk store (hduty.symm.trans hk)

theorem orderly_of_tends {desk : IvDesk} {store : EncounterStore}
    (h : desk.Tends store j.area) : ({ j with duty := .encounters desk store } : Job).Orderly := by
  intro desk' store' hduty
  cases hduty
  exact h

theorem orderly_of_build {builder : JobBuilder} {plan : JobPlan} {clock : Instant}
    (h : builder.build plan clock = .ok j) : j.Orderly := by
  intro desk store hduty
  unfold JobBuilder.build at h
  split at h
  · cases h
  · cases builder with
    | circle | spawnpoint | bootstrap =>
      cases h
      cases hduty
    | autoQuest =>
      dsimp only at h
      split at h
      · cases h
        cases hduty
      · cases h
    | pokemonIv =>
      dsimp only at h
      split at h
      · cases h
      · cases h
        cases hduty
        exact ⟨rfl, rfl, .nil⟩

/-! ## Check-ins and questions -/

theorem Orderly.patrolTask (h : j.Orderly) (action : ScanAction) :
    (j.patrolTask action).2.Orderly := by
  unfold Job.patrolTask
  split
  · exact h.of_eq rfl rfl
  · exact h

theorem Orderly.bootstrapTask (h : j.Orderly) (state : BootstrapState) :
    (j.bootstrapTask state).2.Orderly := by
  unfold Job.bootstrapTask
  split
  · exact h
  · dsimp only
    split
    · exact h.of_eq rfl rfl
    · exact fun desk store hduty => by cases hduty

theorem orderly_questTask (j : Job) (state : QuestState) (today : Date) (account : Option String) :
    (j.questTask state today account).2.Orderly := by
  intro desk store hduty
  unfold Job.questTask at hduty
  dsimp only at hduty
  split at hduty
  · cases hduty
  · split at hduty
    · cases hduty
    · cases hduty

theorem Orderly.ivTask {desk : IvDesk} {store : EncounterStore} (h : desk.Tends store j.area)
    (now : Instant) : (j.ivTask desk store now).2.Orderly := by
  have hnext := h.nextTask j.definition.settings.minLevel j.definition.settings.maxLevel now
  unfold Job.ivTask
  dsimp only
  split
  · rename_i heq
    rw [heq] at hnext
    exact orderly_of_tends hnext
  · rename_i heq
    rw [heq] at hnext
    exact (orderly_of_tends hnext).patrolTask .pokemon

theorem Orderly.handOut (h : j.Orderly) (account : Option String) (now : Instant) :
    (j.handOut account now).2.Orderly := by
  unfold Job.handOut
  split
  · exact h
  · split
    · exact h.patrolTask _
    · exact h.patrolTask .spawnpoint
    · exact h.bootstrapTask _
    · rename_i desk store hduty
      exact Orderly.ivTask (h desk store hduty) now
    · split
      · exact h.of_eq rfl rfl
      · exact j.orderly_questTask _ _ account

theorem Orderly.status (h : j.Orderly) (now : Instant) : (j.status now).2.Orderly := by
  unfold Job.status
  dsimp only
  split
  · exact h
  · split
    · exact h
    · split
      · exact h
      · exact h
      · split
        · exact h
        · exact h
      · exact h
      · rename_i desk store hduty
        exact orderly_of_tends ((h desk store hduty).status now)

/-! ## Acts -/

theorem Orderly.order (h : j.Orderly) (f : Patrol → Patrol) : (j.order f).Orderly := by
  rw [order_eq]
  exact h.of_eq rfl rfl

theorem Orderly.tends_clearQueue (h : j.Orderly) {desk : IvDesk} {store : EncounterStore}
    (hduty : clearQueue j.duty = .encounters desk store) : desk.Tends store j.area := by
  unfold clearQueue at hduty
  split at hduty
  · rename_i hformer
    cases hduty
    exact (h _ _ hformer).reset
  · exact h desk store hduty

/-- A reload empties the queue, of a broken job as well. -/
theorem Orderly.reload (h : j.Orderly) : j.reload.Orderly := by
  unfold Job.reload
  split
  · exact fun desk store hduty => h.tends_clearQueue hduty
  · refine fun desk store hduty => h.tends_clearQueue ?_
    have hduty : restartDuty j.duty = .encounters desk store := hduty
    unfold restartDuty at hduty
    split at hduty
    · cases hduty
    · cases hduty
    · exact hduty

theorem Orderly.addSighting (h : j.Orderly) (s : Sighting) (now : Instant) :
    (j.addSighting s now).Orderly := by
  unfold Job.addSighting
  split
  · rename_i desk store hduty
    exact orderly_of_tends ((h desk store hduty).offer s now)
  · exact h

theorem Orderly.addIv (h : j.Orderly) (s : Sighting) (now : Instant) : (j.addIv s now).Orderly := by
  unfold Job.addIv
  split
  · rename_i desk store hduty
    exact orderly_of_tends ((h desk store hduty).note s now)
  · exact h

theorem Orderly.act (h : j.Orderly) (a : JobAct) : (j.act a).2.Orderly := by
  cases a with
  | task account time => exact h.handOut account time
  | reload => exact h.reload
  | stop => exact h.order Patrol.stop
  | attach uuid => exact h.order (·.attach uuid)
  | detach uuid => exact h.order (·.detach uuid)
  | sighting s time => exact h.addSighting s time
  | checked s time => exact h.addIv s time

/-! ## Checks -/

theorem exists_duty_of_isIv (h : j.isIv = true) : ∃ desk store, j.duty = .encounters desk store := by
  unfold isIv at h
  split at h
  · rename_i desk store hduty
    exact ⟨desk, store, hduty⟩
  · cases h

theorem waiting_of_not_isIv (h : j.isIv = false) : j.waiting = [] := by
  unfold waiting
  unfold isIv at h
  split
  · rename_i hduty
    rw [hduty] at h
    cases h
  · rfl

theorem waiting_of_duty {desk : IvDesk} {store : EncounterStore}
    (h : j.duty = .encounters desk store) : j.waiting = store.queue := by
  rw [waiting, h]

/-- A check that is reported inside the area takes out the entries of its encounter, wherever they stand.
    Outside it takes out nothing. -/
theorem Orderly.waiting_addIv (h : j.Orderly) (s : Sighting) (now : Instant) :
    (j.addIv s now).waiting
      = if j.area.contains s.place then j.waiting.filter fun e => e.sighting.encounter != s.encounter
        else j.waiting := by
  cases hiv : j.isIv with
  | true =>
    obtain ⟨desk, store, hduty⟩ := exists_duty_of_isIv hiv
    have hafter : (j.addIv s now).waiting = (desk.note store s now).queue := by
      rw [Job.addIv, hduty]
      rfl
    rw [hafter, waiting_of_duty hduty]
    exact ((h desk store hduty).queue_note s now).2
  | false =>
    rw [addIv_of_not_isIv hiv, waiting_of_not_isIv hiv, List.filter_nil, ite_self]

/-- What a job shows of its queue are the sightings that wait, in order. -/
theorem Orderly.queue?_getD (h : j.Orderly) : j.queue?.getD [] = j.waiting.map (·.sighting) := by
  cases hiv : j.isIv with
  | true =>
    obtain ⟨desk, store, hduty⟩ := exists_duty_of_isIv hiv
    rw [waiting_of_duty hduty, Job.queue?, hduty]
    dsimp only
    rw [IvDesk.queueOrEmpty, IvDesk.queue, EncounterStore.snapshot,
      IvOffice.guard_eq (h desk store hduty).works]
    rfl
  | false =>
    rw [waiting_of_not_isIv hiv]
    unfold Job.queue?
    unfold isIv at hiv
    split
    · rename_i hduty
      rw [hduty] at hiv
      cases hiv
    · rfl

end Job

end ScanFleet
