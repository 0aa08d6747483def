import ScanFleet.Proofs.Fleet.Whereabouts
import ScanFleet.Proofs.Table

set_option autoImplicit false

/-! # Placing devices

A startup pass looks at every device that works for no instance and picks, of the rules that name it, the
latest one; of several at one time the last. The device is placed when the target of that rule is defined.
A pass leaves no device behind that it could place, so that another pass with the same rules moves
nothing (`Fleet.placed_eq_nil_of_obeyed`). -/

namespace ScanFleet

/-! ## The latest rule -/

/-- Of the rules of a list that fit, the one with the greatest time, and of several with that time the
    last one. -/
def IsLatest (rules : List Assignment) (fits : Assignment → Prop) (a : Assignment) : Prop :=
  ∃ before after, rules = before ++ a :: after ∧ fits a
    ∧ (∀ b ∈ before, fits b → b.time ≤ a.time) ∧ ∀ b ∈ after, fits b → b.time < a.time

theorem isLatest_cons_iff {first a : Assignment} {rules : List Assignment} {fits : Assignment → Prop} :
    IsLatest (first :: rules) fits a
      ↔ IsLatest rules fits a ∧ (fits first → first.time ≤ a.time)
        ∨ a = first ∧ fits first ∧ ∀ b ∈ rules, fits b → b.time < first.time := by
  constructor
  · rintro ⟨before, after, hsplit, hfits, hbefore, hafter⟩
    cases before with
    | nil =>
      obtain ⟨rfl, rfl⟩ := List.cons.inj hsplit
      exact .inr ⟨rfl, hfits, hafter⟩
    | cons other before =>
      obtain ⟨rfl, rfl⟩ := List.cons.inj hsplit
      exact .inl ⟨⟨before, after, rfl, hfits, fun b hb => hbefore b (List.mem_cons_of_mem first hb),
        hafter⟩, hbefore first List.mem_cons_self⟩
  · rintro (⟨⟨before, after, rfl, hfits, hbefore, hafter⟩, hfirst⟩ | ⟨rfl, hfits, hafter⟩)
    · refine ⟨first :: before, after, rfl, hfits, fun b hb => ?_, hafter⟩
      rcases List.mem_cons.1 hb with rfl | hb
      · exact hfirst
      · exact hbefore b hb
    · exact ⟨[], rules, rfl, hfits, by simp, hafter⟩

theorem not_isLatest_nil {fits : Assignment → Prop} {a : Assignment} : ¬ IsLatest [] fits a := by
  rintro ⟨before, after, hsplit, -⟩
  simp at hsplit

theorem isLatest_filter_iff {p : Assignment → Bool} {fits : Assignment → Prop}
    {rules : List Assignment} {a : Assignment} :
    IsLatest (rules.filter p) fits a ↔ IsLatest rules (fun b => p b = true ∧ fits b) a := by
  induction rules with
  | nil => exact iff_of_false not_isLatest_nil not_isLatest_nil
  | cons first rest ih =>
    rw [isLatest_cons_iff]
    cases hp : p first with
    | true =>
      rw [List.filter_cons_of_pos hp, isLatest_cons_iff, ih]
      simp [List.mem_filter]
    | false =>
      rw [List.filter_cons_of_neg (by simp [hp]), ih]
      simp

theorem Storage.mem_members_iff {s : Storage} {name uuid : String} :
    uuid ∈ s.members name ↔ ∃ group, s.group? name = .ok (some group) ∧ uuid ∈ group.members := by
  unfold Storage.members
  split
  · rename_i group hgroup
    simp [hgroup]
  · rename_i hnone
    simp only [List.not_mem_nil, false_iff]
    rintro ⟨group, hgroup, -⟩
    exact hnone group hgroup

namespace Fleet

variable {f g : Fleet} {rules : List Assignment} {a : Assignment}

/-- A rule names its device, or the members of its group if the group can be read. -/
theorem names_iff_scope {uuid : String} :
    f.names a uuid = true ↔ a.scope = .device uuid ∨ ∃ name group, a.scope = .group name
      ∧ f.storage.group? name = .ok (some group) ∧ uuid ∈ group.members := by
  unfold names Assignment.names
  cases a.scope with
  | device other => simp
  | group name => simp [Storage.mem_members_iff]
  | unspecified => simp

/-- Rules are compared one after another; the one picked so far counts as the first of the list. -/
theorem foldl_later_iff {best : Assignment} :
    rules.foldl later (some best) = some a ↔ IsLatest (best :: rules) (fun _ => True) a := by
  induction rules generalizing best with
  | nil =>
    rw [isLatest_cons_iff]
    simp [not_isLatest_nil, eq_comm]
  | cons first rest ih =>
    rw [List.foldl_cons, later, isLatest_cons_iff, isLatest_cons_iff]
    by_cases hearlier : first.time < best.time
    · -- the first rule is passed over, and the rule picked in the end is later than it
      rw [if_pos hearlier, ih, isLatest_cons_iff]
      grind
    · rw [if_neg hearlier, ih, isLatest_cons_iff]
      grind

/-- The rule that places a device is the latest of those that name it. -/
theorem placing?_eq_some_iff {uuid : String} :
    f.placing? rules uuid = some a ↔ IsLatest rules (fun b => f.names b uuid = true) a := by
  have hnamed : IsLatest (rules.filter (f.names · uuid)) (fun _ => True) a
      ↔ IsLatest rules (fun b => f.names b uuid = true) a := by
    simp only [isLatest_filter_iff, and_true]
  rw [← hnamed]
  show (rules.filter (f.names · uuid)).foldl later none = some a ↔ _
  cases rules.filter (f.names · uuid) with
  | nil => simp [not_isLatest_nil]
  | cons first rest => exact foldl_later_iff

/-! ## One pass -/

/-- The target of the rule that places a device; without such a rule it does not matter. -/
def destination (f : Fleet) (rules : List Assignment) (uuid : String) : String :=
  ((f.placing? rules uuid).map (·.target)).getD ""

/-- The devices without an instance that a rule names. -/
def summoned (f : Fleet) (rules : List Assignment) : List Device :=
  f.devices.rows.filter fun d => d.instanceName.isNone && (f.placing? rules d.uuid).isSome

/-- The devices that a startup pass places: those whose rule has a defined target. -/
def placed (f : Fleet) (rules : List Assignment) : List Device :=
  (f.summoned rules).filter fun d => f.definitions.has (f.destination rules d.uuid)

theorem mem_summoned_iff {d : Device} :
    d ∈ f.summoned rules ↔ f.devices.get? d.uuid = some d ∧ d.instanceName = none
      ∧ ∃ a, f.placing? rules d.uuid = some a := by
  rw [summoned, List.mem_filter, Bool.and_eq_true, Option.isNone_iff_eq_none,
    Option.isSome_iff_exists]
  exact and_congr_left fun _ => ⟨Table.get?_of_mem, Table.mem_of_get?⟩

theorem mem_placed_iff {d : Device} :
    d ∈ f.placed rules ↔ f.devices.get? d.uuid = some d ∧ d.instanceName = none
      ∧ ∃ a, f.placing? rules d.uuid = some a ∧ f.definitions.has a.target = true := by
  rw [placed, List.mem_filter, mem_summoned_iff, destination]
  constructor
  · rintro ⟨⟨hget, hfree, a, hplacing⟩, hdefined⟩
    rw [hplacing] at hdefined
    exact ⟨hget, hfree, a, hplacing, hdefined⟩
  · rintro ⟨hget, hfree, a, hplacing, hdefined⟩
    rw [hplacing]
    exact ⟨⟨hget, hfree, a, rfl⟩, hdefined⟩

theorem nodup_placed (f : Fleet) (rules : List Assignment) : (f.placed rules).Nodup := by
  have hrows : f.devices.rows.Nodup :=
    f.devices.pairwise_key_ne.imp fun hne hsame => hne (congrArg key hsame)
  exact (hrows.filter _).filter _

/-- The orders of a startup pass. -/
theorem placements_eq (f : Fleet) (rules : List Assignment) :
    f.placements rules
      = ((f.summoned rules).map (·.uuid)).map fun uuid => ⟨uuid, f.destination rules uuid⟩ := by
  show (f.devices.rows.filter (·.instanceName.isNone)).filterMap
    (fun d => (f.placing? rules d.uuid).map fun a => (⟨d.uuid, a.target⟩ : Move)) = _
  unfold summoned destination
  induction f.devices.rows with
  | nil => rfl
  | cons d rest ih =>
    cases hfree : d.instanceName.isNone with
    | false => simpa [hfree] using ih
    | true =>
      cases hplacing : f.placing? rules d.uuid with
      | none => simpa [hfree, hplacing] using ih
      | some a => simpa [hfree, hplacing] using ih

/-- A device that is summoned sets out when the target of its rule is defined. -/
theorem setsOut_of_mem_summoned {d : Device} (hmem : d ∈ f.summoned rules) (target : String) :
    f.setsOut d.uuid target = f.definitions.has target := by
  obtain ⟨hget, hfree, -⟩ := mem_summoned_iff.1 hmem
  simp [setsOut, reach?_of_known hget, Device.worksFor, hfree]

theorem canFollow_of_mem_summoned {d : Device} (hmem : d ∈ f.summoned rules) (target : String) :
    f.canFollow d.uuid target = f.definitions.has target := by
  obtain ⟨hget, -⟩ := mem_summoned_iff.1 hmem
  simp [canFollow, reach?_of_known hget]

/-- The devices that are placed are those that set out. -/
theorem setsOut_iff_placed {uuid : String} :
    uuid ∈ (f.summoned rules).map (·.uuid) ∧ f.setsOut uuid (f.destination rules uuid) = true
      ↔ ∃ d ∈ f.placed rules, d.uuid = uuid := by
  simp only [List.mem_map, placed, List.mem_filter]
  constructor
  · rintro ⟨⟨d, hmem, rfl⟩, hsets⟩
    exact ⟨d, ⟨hmem, (setsOut_of_mem_summoned hmem _).symm.trans hsets⟩, rfl⟩
  · rintro ⟨d, ⟨hmem, hdefined⟩, rfl⟩
    exact ⟨⟨d, hmem, rfl⟩, (setsOut_of_mem_summoned hmem _).trans hdefined⟩

/-- An order of a startup pass can be followed if it makes its device set out. -/
theorem canFollow_iff_placed {uuid : String} :
    uuid ∈ (f.summoned rules).map (·.uuid) ∧ f.canFollow uuid (f.destination rules uuid) = true
      ↔ ∃ d ∈ f.placed rules, d.uuid = uuid := by
  rw [← setsOut_iff_placed]
  refine and_congr_right fun hmem => ?_
  obtain ⟨d, hd, rfl⟩ := List.mem_map.1 hmem
  rw [canFollow_of_mem_summoned hd, setsOut_of_mem_summoned hd]

/-- A startup pass waits for good for the write of a device that it places, or it answers how many devices
    it places. -/
theorem placeAll_outcome (f : Fleet) (rules : List Assignment) :
    ((∃ d ∈ f.placed rules, f.storage.Hangs d.uuid)
        ∧ ∃ g, f.placeAll rules = (.error .stalled, g))
      ∨ ∃ g, f.placeAll rules = (.ok (f.placed rules).length, g)
        ∧ f.Obeyed (f.destination rules) ((f.summoned rules).map (·.uuid)) g := by
  unfold placeAll
  rw [placements_eq]
  obtain ⟨⟨uuid, hmem, hsets, hhangs⟩, hstalls⟩ | ⟨-, g, heq, hobeyed⟩ :=
    f.moveAll_outcome (some .startup) (f.destination rules) ((f.summoned rules).map (·.uuid))
  · obtain ⟨d, hd, rfl⟩ := setsOut_iff_placed.1 ⟨hmem, hsets⟩
    exact .inl ⟨⟨d, hd, hhangs⟩, hstalls⟩
  · refine .inr ⟨g, ?_, hobeyed⟩
    -- a summoned device is registered: only an undefined target keeps it from being placed
    rw [heq, List.countP_map, placed, ← List.countP_eq_length_filter]
    congr 2
    exact List.countP_congr fun d hd => by rw [Function.comp_apply, canFollow_of_mem_summoned hd]

/-- The devices that a startup pass places are sent to their destinations. -/
theorem relocated_of_obeyed
    (hfg : f.Obeyed (f.destination rules) ((f.summoned rules).map (·.uuid)) g) :
    f.Relocated (fun d target => d ∈ f.placed rules ∧ f.destination rules d.uuid = target) g := by
  refine hfg.relocated ?_ fun uuid hmem hfollows => ?_
  · rintro d target ⟨hd, rfl⟩
    have hreach : f.reach? d.uuid = some d := reach?_of_known (mem_placed_iff.1 hd).1
    exact ⟨hreach, rfl, setsOut_iff_placed.2 ⟨d, hd, rfl⟩⟩
  · obtain ⟨d, hd, huuid⟩ := canFollow_iff_placed.1 ⟨hmem, hfollows⟩
    exact ⟨d, f.destination rules d.uuid, huuid, hd, rfl⟩

/-! ## Another pass -/

theorem Aside.placing?_eq (hfg : f.Aside g) (rules : List Assignment) (uuid : String) :
    g.placing? rules uuid = f.placing? rules uuid := by
  obtain ⟨devices, stored, jobs, metrics, rfl⟩ := hfg
  rfl

/-- After a startup pass there is nobody left to place. -/
theorem placed_eq_nil_of_obeyed
    (hfg : f.Obeyed (f.destination rules) ((f.summoned rules).map (·.uuid)) g) :
    g.placed rules = [] := by
  refine List.eq_nil_iff_forall_not_mem.2 fun d hd => ?_
  obtain ⟨hget, hfree, a, hplacing, hdefined⟩ := mem_placed_iff.1 hd
  rw [hfg.aside.placing?_eq] at hplacing
  rw [hfg.aside.definitions] at hdefined
  by_cases hplaced : ∃ other target, other.uuid = d.uuid
      ∧ other ∈ f.placed rules ∧ f.destination rules other.uuid = target
  · -- a device that was placed has an instance
    obtain ⟨other, target, hsame, hother⟩ := hplaced
    rw [← hsame, ((relocated_of_obeyed hfg).there other target hother).1] at hget
    obtain rfl := Option.some.inj hget
    cases hfree
  · rw [((relocated_of_obeyed hfg).others d.uuid hplaced).1] at hget
    have hd : d ∈ f.placed rules := mem_placed_iff.2 ⟨hget, hfree, a, hplacing, hdefined⟩
    exact hplaced ⟨d, f.destination rules d.uuid, rfl, hd, rfl⟩

theorem reassign_of_not_canFollow {uuid target : String} (hidle : f.canFollow uuid target = false) :
    ∃ error, f.reassign uuid target = (.error (.failed error), f) := by
  obtain ⟨-, hfailed⟩ | ⟨device, hdefined, hreach, -⟩ | ⟨device, g, hdefined, hreach, -⟩ | ⟨hsets, -⟩ :=
    f.reassign_outcome uuid target
  · exact hfailed
  · simp [canFollow, hdefined, hreach] at hidle
  · simp [canFollow, hdefined, hreach] at hidle
  · rw [canFollow_of_setsOut hsets] at hidle
    cases hidle

/-- Orders that cannot be followed count for their trigger and do nothing else. -/
theorem moveAll_of_not_canFollow {moves : List Move}
    (hidle : ∀ m ∈ moves, f.canFollow m.uuid m.target = false) (trigger : Trigger) :
    ∃ metrics, f.moveAll (some trigger) moves = (.ok 0, { f with metrics })
      ∧ metrics.reassignments = f.metrics.reassignments := by
  induction moves generalizing f with
  | nil => exact ⟨f.metrics, rfl, rfl⟩
  | cons m rest ih =>
    obtain ⟨error, hfailed⟩ : ∃ error, (f.countTrigger trigger).reassign m.uuid m.target
        = (.error (.failed error), f.countTrigger trigger) :=
      reassign_of_not_canFollow (hidle m List.mem_cons_self)
    obtain ⟨metrics, hrest, hsame⟩ := ih (f := f.countTrigger trigger)
      fun other hother => hidle other (List.mem_cons_of_mem m hother)
    refine ⟨metrics, ?_, hsame⟩
    rw [moveAll, Option.elim_some, hfailed]
    exact hrest

/-- A startup pass with nobody to place moves nothing. -/
theorem placeAll_of_placed_eq_nil (hnobody : f.placed rules = []) :
    ∃ metrics, f.placeAll rules = (.ok 0, { f with metrics })
      ∧ metrics.reassignments = f.metrics.reassignments := by
  refine moveAll_of_not_canFollow (fun m hm => ?_) .startup
  rw [placements_eq] at hm
  obtain ⟨uuid, huuid, rfl⟩ := List.mem_map.1 hm
  refine Bool.eq_false_iff.2 fun hfollows => ?_
  obtain ⟨d, hd, -⟩ := canFollow_iff_placed.1 ⟨huuid, hfollows⟩
  rw [hnobody] at hd
  cases hd

end Fleet

end ScanFleet
