import ScanFleet.Proofs.Schedule.Edits
import ScanFleet.Proofs.Table
import ScanFleet.Station.Run

set_option autoImplicit false

/-! # The rules of a station

Two things are asked of the rules in force: that their ids differ, and that each is valid. Different
operations see to it. Loading leaves out what is not valid, and the ids differ because storage files
rows by id; adding looks at both; an edit is a deletion and then an addition. So the rules are well
formed at every moment (`Schedule.WellFormed`), and an id stands for one rule (`Station.RulesById`). -/

namespace ScanFleet

namespace Schedule

variable {s t : Schedule} {a : Assignment} {id old : UInt32}

/-- The rules have ids of their own, and each is valid. -/
structure WellFormed (s : Schedule) : Prop where
  distinct : s.Distinct
  valid : ∀ a ∈ s.rules, a.IsValid

/-- Well-formed rules stay so when some are taken out of force. -/
theorem WellFormed.of_sublist (h : s.WellFormed) (hsublist : t.rules.Sublist s.rules) :
    t.WellFormed :=
  ⟨h.distinct.sublist hsublist, fun a ha => h.valid a (hsublist.subset ha)⟩

/-- A rule that is added is valid, and goes behind the others. -/
theorem valid_of_add (hadd : s.add a = .ok t) : a.IsValid ∧ t.rules = s.rules ++ [a] := by
  unfold add at hadd
  split at hadd
  · cases hadd
  · rename_i hvalid
    split at hadd
    · cases hadd
    · rw [← Except.ok.inj hadd]
      exact ⟨hvalid, rfl⟩

theorem WellFormed.add (h : s.WellFormed) (hadd : s.add a = .ok t) : t.WellFormed := by
  obtain ⟨hvalid, hrules⟩ := valid_of_add hadd
  refine ⟨distinct_add h.distinct hadd, fun b hb => ?_⟩
  rw [hrules, List.mem_append, List.mem_singleton] at hb
  rcases hb with hb | rfl
  · exact h.valid b hb
  · exact hvalid

theorem WellFormed.delete (h : s.WellFormed) (hdelete : s.delete id = .ok t) : t.WellFormed := by
  unfold Schedule.delete at hdelete
  split at hdelete
  · cases hdelete
  · rw [← Except.ok.inj hdelete]
    exact h.of_sublist List.filter_sublist

theorem WellFormed.edit (h : s.WellFormed) (old : UInt32) (a : Assignment) :
    (s.edit old a).2.WellFormed := by
  unfold Schedule.edit
  split
  · exact h
  · split
    · exact h
    · rename_i t hdelete
      have ht := h.delete hdelete
      split
      · exact ht
      · rename_i u hadd
        exact ht.add hadd

theorem wellFormed_load (s : Schedule) (stored : Table Assignment) :
    (s.load stored.rows).WellFormed where
  distinct := s.distinct_load stored
  valid _ ha := of_decide_eq_true (List.mem_filter.1 ha).2

theorem wellFormed_of_empty (h : s.rules = []) : s.WellFormed where
  distinct := by
    rw [Distinct, h]
    exact List.Pairwise.nil
  valid a ha := by
    rw [h] at ha
    cases ha

/-- Of the rows of a seed, those are in force that are valid and the last with their id. -/
theorem mem_load_ofSeed_iff {seed : Seed} :
    a ∈ (s.load (Tables.ofSeed seed).assignments.rows).rules
      ↔ a.IsValid ∧ ∃ earlier later, seed.assignments = earlier ++ a :: later
        ∧ ∀ b ∈ later, b.id ≠ a.id := by
  have hrow : a ∈ (Tables.ofSeed seed).assignments.rows
      ↔ (Table.ofList seed.assignments).get? a.id = some a :=
    ⟨Table.get?_of_mem, Table.mem_of_get?⟩
  rw [load, List.mem_filter, decide_eq_true_eq, hrow, Table.get?_ofList_eq_some_iff, and_comm]
  constructor
  · rintro ⟨hvalid, earlier, later, hrows, -, hlater⟩
    exact ⟨hvalid, earlier, later, hrows, hlater⟩
  · rintro ⟨hvalid, earlier, later, hrows, hlater⟩
    exact ⟨hvalid, earlier, later, hrows, rfl, hlater⟩

/-! ## Rules and their ids -/

/-- All other rules have other ids. -/
theorem Distinct.id_ne (h : s.Distinct) {front back : List Assignment}
    (hrules : s.rules = front ++ a :: back) : ∀ b ∈ front ++ back, b.id ≠ a.id := by
  rw [Distinct, hrules, List.pairwise_append, List.pairwise_cons] at h
  obtain ⟨-, ⟨hback, -⟩, hfront⟩ := h
  intro b hb
  rcases List.mem_append.1 hb with hb | hb
  · exact hfront b hb a List.mem_cons_self
  · exact Ne.symm (hback b hb)

theorem rule?_of_mem (h : s.Distinct) (hmem : a ∈ s.rules) : s.rule? a.id = some a := by
  obtain ⟨front, back, hrules⟩ := List.append_of_mem hmem
  refine List.find?_eq_some_iff_append.2 ⟨beq_self_eq_true a.id, front, back, hrules, fun b hb => ?_⟩
  simpa using h.id_ne hrules b (List.mem_append_left back hb)

/-- Taking a rule out of force leaves all others. -/
theorem without_rules (h : s.Distinct) {front back : List Assignment}
    (hrules : s.rules = front ++ a :: back) : (s.without a.id).rules = front ++ back := by
  show s.rules.filter (·.id != a.id) = front ++ back
  rw [hrules, List.filter_append, List.filter_cons_of_neg (by simp), ← List.filter_append]
  exact List.filter_eq_self.2 fun b hb => bne_iff_ne.2 (h.id_ne hrules b hb)

/-- The rules in order of their ids have increasing ids. -/
theorem byId_ascending (h : s.Distinct) : s.byId.Pairwise fun a b => a.id < b.id := by
  have hsorted : s.byId.Pairwise fun a b => a.id ≤ b.id := by
    refine (List.pairwise_mergeSort (fun a b c hab hbc => ?_) (fun a b => ?_) s.rules).imp
      of_decide_eq_true
    · exact decide_eq_true (UInt32.le_trans (of_decide_eq_true hab) (of_decide_eq_true hbc))
    · simpa using UInt32.le_total a.id b.id
  have hdistinct : s.byId.Pairwise fun a b => a.id ≠ b.id :=
    (List.Perm.pairwise_iff (fun hne => Ne.symm hne) (List.mergeSort_perm s.rules _)).2 h
  exact (hsorted.and hdistinct).imp fun ⟨hle, hne⟩ => UInt32.lt_of_le_of_ne hle hne

end Schedule

/-- What is asked of a station about its rules. -/
inductive RuleRequest where
  /-- The rules are loaded from storage, whatever is stored there and whether or not it can be read. -/
  | load (storage : Storage)
  | add (a : Assignment)
  | edit (old : UInt32) (a : Assignment)
  | delete (id : UInt32)
  | deleteAll
  | clear

namespace Station

variable {s : Station}

/-- The station after a request. -/
def asked (s : Station) : RuleRequest → Station
  | .load storage => { s with fleet := { s.fleet with storage } }.loadRules.2
  | .add a => (s.addRule a).2
  | .edit old a => (s.editRule old a).2
  | .delete id => (s.deleteRule id).2
  | .deleteAll => { s with schedule := s.schedule.deleteAll }
  | .clear => { s with schedule := s.schedule.clear }

/-- The station after requests. -/
def askedAll (s : Station) (requests : List RuleRequest) : Station := requests.foldl asked s

/-- An id stands for one rule. -/
structure RulesById (s : Station) : Prop where
  /-- A deletion takes out the one rule with the id. -/
  delete : ∀ front a back, s.schedule.rules = front ++ a :: back →
    s.deleteRule a.id = (.ok (), { s with schedule := { s.schedule with rules := front ++ back } })
  /-- By hand, the one rule with the id is fired. -/
  fire : ∀ a ∈ s.schedule.rules, ∀ force,
    s.fireByHand a.id force = s.onFleet (s.fleet.fireByHand a force)
  /-- An id that no rule has is refused. -/
  unknown : ∀ id, (∀ a ∈ s.schedule.rules, a.id ≠ id) →
    s.deleteRule id = (.error (.failed (.assignmentNotFound id)), s)
      ∧ ∀ force, s.fireByHand id force = (.error (.failed (.assignmentNotFound id)), s)
  /-- All rules are listed, in order of their ids. -/
  listed : s.schedule.byId.Perm s.schedule.rules
  ascending : s.schedule.byId.Pairwise fun a b => a.id < b.id

theorem wellFormed_asked (h : s.schedule.WellFormed) (request : RuleRequest) :
    (s.asked request).schedule.WellFormed := by
  cases request with
  | load storage =>
    rw [asked, loadRules]
    split
    · exact h
    · rename_i stored hstored
      rw [← Storage.eq_of_read hstored]
      exact Schedule.wellFormed_load _ _
  | add a =>
    rw [asked, addRule]
    cases hadd : s.schedule.add a with
    | error error => exact h
    | ok t => exact h.add hadd
  | edit old a => exact h.edit old a
  | delete id =>
    rw [asked, deleteRule]
    cases hdelete : s.schedule.delete id with
    | error error => exact h
    | ok t => exact h.delete hdelete
  | deleteAll => exact Schedule.wellFormed_of_empty rfl
  | clear => exact Schedule.wellFormed_of_empty rfl

theorem wellFormed_askedAll (h : s.schedule.WellFormed) (requests : List RuleRequest) :
    (s.askedAll requests).schedule.WellFormed :=
  List.foldlRecOn (motive := fun t : Station => t.schedule.WellFormed) requests asked h
    fun _ ht request _ => wellFormed_asked ht request

theorem rulesById (h : s.schedule.Distinct) : s.RulesById where
  delete front a back hrules := by
    have hmem : a ∈ s.schedule.rules := by
      rw [hrules]
      exact List.mem_append_right front List.mem_cons_self
    rw [deleteRule, Schedule.delete_of_mem hmem, onSchedule, ← Schedule.without_rules h hrules]
    rfl
  fire a ha force := by
    rw [fireByHand, Schedule.rule?_of_mem h ha]
  unknown id habsent := by
    refine ⟨?_, fun force => ?_⟩
    · rw [deleteRule, Schedule.delete_of_absent habsent, onSchedule]
    · rw [fireByHand, Schedule.rule?_eq_none_iff.2 habsent]
  listed := List.mergeSort_perm s.schedule.rules _
  ascending := Schedule.byId_ascending h

/-- Whatever is asked of a station with a new schedule, and whatever it answers, its rules are valid
    and have ids of their own, so that an id stands for one rule; of the rows of a seed it loads those
    that are valid and the last with their id. -/
theorem rules_well_formed (s : Station) (requests : List RuleRequest) :
    let t := ({ s with schedule := {} } : Station).askedAll requests
    t.schedule.WellFormed ∧ t.RulesById
      ∧ ∀ (seed : Seed) (a : Assignment),
        a ∈ (t.asked (.load { tables := .ofSeed seed })).schedule.rules
          ↔ a.IsValid ∧ ∃ earlier later, seed.assignments = earlier ++ a :: later
            ∧ ∀ b ∈ later, b.id ≠ a.id := by
  intro t
  have hformed : t.schedule.WellFormed :=
    wellFormed_askedAll (Schedule.wellFormed_of_empty rfl) requests
  exact ⟨hformed, rulesById hformed.distinct, fun seed a => Schedule.mem_load_ofSeed_iff⟩

end Station

end ScanFleet
