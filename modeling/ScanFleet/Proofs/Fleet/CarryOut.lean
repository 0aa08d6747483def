import Mathlib.Data.List.Perm.Subperm
import ScanFleet.Proofs.Fleet.Whereabouts

set_option autoImplicit false

/-! # Carrying out a rule

A rule first finds the devices that it is about, then orders those that it moves to its target, one after
another. Which devices set out is decided by what was found, before the first of them moves. A device that
is found twice is ordered twice, and the second order finds it there already. So a rule that comes to an
end changes the devices that it sends (`Fleet.Sends`), and counts one reassignment for each. It answers how
many of its orders went well, and these are more than the devices when a group lists one of them again
(`Fleet.twiceListed`). -/

namespace ScanFleet

/-- A rule moves a device that is off its target, if it is forced or the device is where the rule looks
    for it. -/
theorem Assignment.moves_iff {a : Assignment} {completed : Option String} {force : Bool} {d : Device} :
    a.moves completed force d = true ↔ d.instanceName ≠ some a.target ∧ (force = true
      ∨ (∀ name, a.source = some name → d.instanceName = some name)
        ∧ ∀ name, completed = some name → d.instanceName = some name) := by
  simp [moves, Device.worksFor, Option.all_eq_true]

namespace Fleet

variable {f g : Fleet} {a : Assignment} {completed : Option String} {force : Bool}

/-- The uuids that a rule is about: its device; else the stored members of its group; else every
    device of the fleet, when the rule is forced. -/
def targeted (f : Fleet) (a : Assignment) (force : Bool) : List String :=
  match a.scope with
  | .device uuid => [uuid]
  | .group name => ((f.storage.tables.groups.get? name).map (·.members)).getD []
  | .unspecified => if force then f.devices.rows.map (·.uuid) else []

/-- A read fails that is made to find the devices that a rule is about: that of its group, or that of
    the devices which the fleet does not know. -/
def Unresolved (f : Fleet) (a : Assignment) (force : Bool) : Prop :=
  (∃ name, a.scope = .group name ∧ f.storage.isDown (.group name) = true)
    ∨ f.strangers (f.targeted a force) ≠ []
      ∧ f.storage.isDown (.devices (f.strangers (f.targeted a force))) = true

theorem not_unresolved_of_readable (hreads : f.storage.Readable) : ¬ f.Unresolved a force := by
  rintro (⟨name, -, hdown⟩ | ⟨-, hdown⟩)
  · rw [hreads.group] at hdown
    cases hdown
  · rw [hreads.devices] at hdown
    cases hdown

theorem subjectUuids_cases (f : Fleet) (a : Assignment) (force : Bool) :
    ((∃ name, a.scope = .group name ∧ f.storage.isDown (.group name) = true)
        ∧ ∃ error, f.subjectUuids a force = .error error)
      ∨ ¬ (∃ name, a.scope = .group name ∧ f.storage.isDown (.group name) = true)
        ∧ f.subjectUuids a force = .ok (f.targeted a force) := by
  unfold subjectUuids targeted
  cases a.scope with
  | device uuid => exact .inr ⟨by simp, rfl⟩
  | group name =>
    dsimp only
    cases hdown : f.storage.isDown (.group name) with
    | true =>
      obtain ⟨error, hread⟩ := Storage.read_of_down hdown (f.storage.tables.groups.get? name)
      refine .inl ⟨⟨name, rfl, hdown⟩, error, ?_⟩
      rw [Storage.group?, hread]
      rfl
    | false =>
      refine .inr ⟨?_, ?_⟩
      · rintro ⟨other, hscope, hother⟩
        obtain rfl := AssignmentScope.group.inj hscope
        rw [hdown] at hother
        cases hother
      · rw [Storage.group?, Storage.read_eq hdown]
        rfl
  | unspecified => exact .inr ⟨by simp, rfl⟩

/-- The devices with given uuids are found, the known ones first. -/
theorem found_perm (f : Fleet) (uuids : List String) :
    (uuids.filterMap f.devices.get? ++ (f.strangers uuids).filterMap
      f.storage.tables.devices.get?).Perm (uuids.filterMap f.device?) := by
  unfold strangers
  induction uuids with
  | nil => exact .refl _
  | cons uuid rest ih =>
    have hdevice : f.device? uuid
        = (f.devices.get? uuid).or (f.storage.tables.devices.get? uuid) := rfl
    rw [List.filterMap_cons, List.filter_cons, List.filterMap_cons, hdevice, Table.has]
    cases f.devices.get? uuid with
    | some device => exact ih.cons device
    | none =>
      -- a device that is only stored is found after all the known ones
      rw [Option.none_or, Option.isSome_none, Bool.not_false, if_pos rfl, List.filterMap_cons]
      cases f.storage.tables.devices.get? uuid with
      | some device => exact List.perm_middle.trans (ih.cons device)
      | none => exact ih

theorem findDevices_cases (f : Fleet) (uuids : List String) :
    ((f.strangers uuids ≠ [] ∧ f.storage.isDown (.devices (f.strangers uuids)) = true)
        ∧ ∃ error, f.findDevices uuids = .error error)
      ∨ ¬ (f.strangers uuids ≠ [] ∧ f.storage.isDown (.devices (f.strangers uuids)) = true)
        ∧ ∃ devices, f.findDevices uuids = .ok devices
          ∧ devices.Perm (uuids.filterMap f.device?) := by
  have hfound := f.found_perm uuids
  unfold findDevices
  dsimp only
  split
  · rename_i hnobody
    rw [hnobody, List.filterMap_nil, List.append_nil] at hfound
    exact .inr ⟨fun hfails => hfails.1 hnobody, _, rfl, hfound⟩
  · rename_i hsomebody
    cases hdown : f.storage.isDown (.devices (f.strangers uuids)) with
    | true =>
      obtain ⟨error, hread⟩ := Storage.read_of_down hdown
        ((f.strangers uuids).filterMap f.storage.tables.devices.get?)
      refine .inl ⟨⟨hsomebody, rfl⟩, error, ?_⟩
      rw [Storage.devicesAmong, hread]
      rfl
    | false =>
      refine .inr ⟨fun hfails => Bool.noConfusion hfails.2, _, ?_, hfound⟩
      rw [Storage.devicesAmong, Storage.read_eq hdown]
      rfl

/-- The devices that a rule is about are found, unless a read fails. -/
theorem subjects_cases (f : Fleet) (a : Assignment) (force : Bool) :
    (f.Unresolved a force ∧ ∃ error, f.subjects a force = .error error)
      ∨ ¬ f.Unresolved a force ∧ ∃ devices, f.subjects a force = .ok devices
        ∧ devices.Perm ((f.targeted a force).filterMap f.device?) := by
  unfold subjects Unresolved
  obtain ⟨hgroup, error, huuids⟩ | ⟨hgroup, huuids⟩ := f.subjectUuids_cases a force
  · rw [huuids]
    exact .inl ⟨.inl hgroup, error, rfl⟩
  · rw [huuids]
    obtain ⟨hunknown, hfails⟩ | ⟨hresolved, hfound⟩ := f.findDevices_cases (f.targeted a force)
    · exact .inl ⟨.inr hunknown, hfails⟩
    · exact .inr ⟨fun hfails => hfails.elim hgroup hresolved, hfound⟩

/-! ## The orders of a rule -/

/-- The uuids that a rule orders to its target, in the turn in which it is about them. -/
def ordered (f : Fleet) (a : Assignment) (completed : Option String) (force : Bool) : List String :=
  (f.targeted a force).filter fun uuid => (f.device? uuid).any (a.moves completed force)

theorem mem_ordered_iff {uuid : String} :
    uuid ∈ f.ordered a completed force ↔ uuid ∈ f.targeted a force
      ∧ ∃ device, f.device? uuid = some device ∧ a.moves completed force device = true := by
  rw [ordered, List.mem_filter, Option.any_eq_true]

/-- The devices that a rule moves are the ones that it orders. -/
theorem map_uuid_filter_moves (uuids : List String) :
    ((uuids.filterMap f.device?).filter (a.moves completed force)).map (·.uuid)
      = uuids.filter fun uuid => (f.device? uuid).any (a.moves completed force) := by
  induction uuids with
  | nil => rfl
  | cons uuid rest ih =>
    rw [List.filterMap_cons, List.filter_cons]
    cases hdevice : f.device? uuid with
    | none => simpa using ih
    | some device =>
      obtain rfl := uuid_of_device? hdevice
      cases hmoves : a.moves completed force device with
      | true => simp [hmoves, ih]
      | false => simp [hmoves, ih]

/-- A device that is ordered can only set out. -/
theorem canFollow_eq_setsOut {uuid : String} (hmem : uuid ∈ f.ordered a completed force) :
    f.canFollow uuid a.target = f.setsOut uuid a.target := by
  obtain ⟨-, device, hdevice, hmoves⟩ := mem_ordered_iff.1 hmem
  have helse := (Assignment.moves_iff.1 hmoves).1
  unfold canFollow setsOut
  cases hreach : f.reach? uuid with
  | none => rfl
  | some other =>
    obtain rfl : other = device := Option.some.inj ((device?_of_reach? hreach).symm.trans hdevice)
    simp [Device.worksFor, helse]

/-- A rule whose devices are found waits for good for a write of a device that sets out, or it answers
    how many of its orders sent a device out. -/
theorem carryOut_outcome (completed : Option String) (hresolved : ¬ f.Unresolved a force) :
    ((∃ uuid ∈ f.ordered a completed force, f.setsOut uuid a.target = true ∧ f.storage.Hangs uuid)
        ∧ ∃ g, f.carryOut a completed force = (.error .stalled, g))
      ∨ (∀ uuid ∈ f.ordered a completed force, f.setsOut uuid a.target = true →
          ¬ f.storage.Hangs uuid)
        ∧ ∃ g, f.carryOut a completed force
            = (.ok ((f.ordered a completed force).countP (f.setsOut · a.target)), g)
          ∧ f.Obeyed (fun _ => a.target) (f.ordered a completed force) g := by
  obtain ⟨hfails, -⟩ | ⟨-, devices, hsubjects, hperm⟩ := f.subjects_cases a force
  · exact absurd hfails hresolved
  have horders : ((devices.filter (a.moves completed force)).map (·.uuid)).Perm
      (f.ordered a completed force) := by
    rw [ordered, ← map_uuid_filter_moves]
    exact (hperm.filter _).map _
  have hcarry : f.carryOut a completed force
      = f.moveAll none (((devices.filter (a.moves completed force)).map (·.uuid)).map
          fun uuid => ⟨uuid, a.target⟩) := by
    rw [carryOut, hsubjects, List.map_map]
    rfl
  -- what is ordered is off the target, so that an order which can be followed sends it out
  have hcount : (f.ordered a completed force).countP (f.canFollow · a.target)
      = (f.ordered a completed force).countP (f.setsOut · a.target) :=
    List.countP_congr fun uuid hmem => by rw [canFollow_eq_setsOut hmem]
  rw [hcarry]
  obtain ⟨⟨uuid, hmem, hwaits⟩, hstalls⟩ | ⟨hends, g, heq, hobeyed⟩ :=
    f.moveAll_outcome none (fun _ => a.target)
      ((devices.filter (a.moves completed force)).map (·.uuid))
  · exact .inl ⟨⟨uuid, horders.mem_iff.1 hmem, hwaits⟩, hstalls⟩
  · refine .inr ⟨fun uuid hmem => hends uuid (horders.mem_iff.2 hmem), g, ?_,
      hobeyed.of_mem_iff fun uuid => horders.mem_iff⟩
    rw [heq, horders.countP_eq, hcount]

/-- A rule whose devices are not found leaves the fleet as it is. -/
theorem carryOut_of_unresolved (completed : Option String) (hfails : f.Unresolved a force) :
    ∃ error, f.carryOut a completed force = (.error (.failed error), f) := by
  obtain ⟨-, error, hsubjects⟩ | ⟨hresolved, -⟩ := f.subjects_cases a force
  · refine ⟨error, ?_⟩
    rw [carryOut, hsubjects]
  · exact absurd hfails hresolved

theorem obeyed_of_carryOut {moved : Nat} (hcarried : f.carryOut a completed force = (.ok moved, g)) :
    f.Obeyed (fun _ => a.target) (f.ordered a completed force) g
      ∧ moved = (f.ordered a completed force).countP (f.setsOut · a.target) := by
  by_cases hresolved : f.Unresolved a force
  · obtain ⟨error, hfailed⟩ := carryOut_of_unresolved completed hresolved
    rw [hfailed] at hcarried
    cases hcarried
  · obtain ⟨-, h, hstalled⟩ | ⟨-, h, heq, hobeyed⟩ := carryOut_outcome completed hresolved
    · rw [hstalled] at hcarried
      cases hcarried
    · rw [heq] at hcarried
      obtain ⟨hmoved, rfl⟩ := Prod.mk.inj hcarried
      exact ⟨hobeyed, (Except.ok.inj hmoved).symm⟩

/-! ## Which devices move -/

/-- A rule sends a device, as it is known or else as it is stored: the rule is about the device, its
    target is defined, and the device is not there yet. Unless the rule is forced, the device has to be
    on the source of the rule, if it has one, and on the instance that fired it, if one did. -/
structure Sends (f : Fleet) (a : Assignment) (completed : Option String) (force : Bool) (d : Device) :
    Prop where
  known : f.device? d.uuid = some d
  targeted : d.uuid ∈ f.targeted a force
  defined : f.definitions.has a.target = true
  elsewhere : d.instanceName ≠ some a.target
  called : force = true ∨ (∀ name, a.source = some name → d.instanceName = some name)
    ∧ ∀ name, completed = some name → d.instanceName = some name

/-- When devices can be read, the devices that a rule sends are those that it orders and that set
    out. -/
theorem exists_sends_iff (hread : ∀ uuid : String, f.storage.isDown (.device uuid) = false)
    (uuid : String) :
    (∃ d, d.uuid = uuid ∧ f.Sends a completed force d)
      ↔ uuid ∈ f.ordered a completed force ∧ f.setsOut uuid a.target = true := by
  constructor
  · rintro ⟨d, rfl, hsends⟩
    refine ⟨mem_ordered_iff.2 ⟨hsends.targeted, d, hsends.known,
      Assignment.moves_iff.2 ⟨hsends.elsewhere, hsends.called⟩⟩, ?_⟩
    simp [setsOut, hsends.defined, reach?_eq_device? (hread _), hsends.known, Device.worksFor,
      hsends.elsewhere]
  · rintro ⟨hmem, hsets⟩
    obtain ⟨htargeted, d, hdevice, hmoves⟩ := mem_ordered_iff.1 hmem
    obtain rfl := uuid_of_device? hdevice
    obtain ⟨helse, hcalled⟩ := Assignment.moves_iff.1 hmoves
    exact ⟨d, rfl, hdevice, htargeted, (Bool.and_eq_true_iff.1 hsets).1, helse, hcalled⟩

/-- A rule is refused exactly when a read fails that is made to find its devices, and then nothing
    changes. When reads are answered, the devices whose instance changes are those that the rule sends;
    they are on its target, and all others are untouched. Only a write that hangs keeps the rule from
    coming to an end. -/
theorem carryOut_sends (f : Fleet) (a : Assignment) (completed : Option String) (force : Bool) :
    (f.Unresolved a force ↔ ∃ error, f.carryOut a completed force = (.error (.failed error), f))
      ∧ (f.storage.Readable →
        (∃ d, f.Sends a completed force d ∧ f.storage.Hangs d.uuid
            ∧ (f.carryOut a completed force).1 = .error .stalled)
          ∨ ∃ moved g, f.carryOut a completed force = (.ok moved, g)
            ∧ (∀ uuid, f.Changes g uuid ↔ ∃ d, d.uuid = uuid ∧ f.Sends a completed force d)
            ∧ f.Relocated (fun d target => f.Sends a completed force d ∧ a.target = target) g) := by
  refine ⟨⟨carryOut_of_unresolved completed, ?_⟩, fun hreads => ?_⟩
  · rintro ⟨error, hfailed⟩
    by_cases hresolved : f.Unresolved a force
    · exact hresolved
    · obtain ⟨-, g, heq⟩ | ⟨-, g, heq, -⟩ := carryOut_outcome completed hresolved
      · simp [heq] at hfailed
      · simp [heq] at hfailed
  · have hsends : ∀ uuid, (∃ d, d.uuid = uuid ∧ f.Sends a completed force d)
        ↔ uuid ∈ f.ordered a completed force ∧ f.setsOut uuid a.target = true :=
      exists_sends_iff hreads.device
    obtain ⟨⟨uuid, hmem, hsets, hhangs⟩, g, heq⟩ | ⟨-, g, heq, hobeyed⟩ :=
      carryOut_outcome completed (not_unresolved_of_readable hreads)
    · obtain ⟨d, rfl, hd⟩ := (hsends uuid).2 ⟨hmem, hsets⟩
      exact .inl ⟨d, hd, hhangs, by rw [heq]⟩
    · refine .inr ⟨_, g, heq, fun uuid => (hobeyed.changes_iff uuid).trans (hsends uuid).symm,
        hobeyed.relocated ?_ ?_⟩
      · rintro d target ⟨hd, rfl⟩
        have hreach : f.reach? d.uuid = some d :=
          (reach?_eq_device? (hreads.device d.uuid)).trans hd.known
        exact ⟨hreach, rfl, (hsends d.uuid).1 ⟨d, rfl, hd⟩⟩
      · intro uuid hmem hfollows
        obtain ⟨d, huuid, hd⟩ := (hsends uuid).2 ⟨hmem, canFollow_eq_setsOut hmem ▸ hfollows⟩
        exact ⟨d, a.target, huuid, hd, rfl⟩

/-- Two devices of the first circle, one of them only stored, a device that works for none, and a group
    that lists them all and a stranger. -/
def mixedCrew : Fleet where
  storage := { tables := .ofSeed {
    devices := [{ uuid := "dev-1", instanceName := some "A" },
      { uuid := "dev-2", instanceName := some "A" }]
    groups := [⟨"crew", ["dev-1", "stranger", "dev-2", "dev-3", "dev-1"]⟩] } }
  definitions := .ofList [⟨"A", .circlePokemon, {}⟩, ⟨"B", .circlePokemon, {}⟩]
  devices := .ofList [{ uuid := "dev-1", instanceName := some "A" }, { uuid := "dev-3" }]

/-- The same devices, and their group cannot be read. -/
def unreadCrew : Fleet :=
  { mixedCrew with storage := { mixedCrew.storage with down := [.group "crew"] } }

/-- The group goes from the first circle to the second one. -/
def crewToB : Assignment := { id := 1, target := "B", source := some "A", group := some "crew" }

theorem carryOut_sends_mixedCrew :
    (mixedCrew.storage.Readable ∧ ∃ moved g, mixedCrew.carryOut crewToB none false = (.ok moved, g)
        ∧ (∀ uuid, mixedCrew.Changes g uuid
          ↔ ∃ d, d.uuid = uuid ∧ mixedCrew.Sends crewToB none false d)
        ∧ mixedCrew.Relocated
          (fun d target => mixedCrew.Sends crewToB none false d ∧ crewToB.target = target) g)
      ∧ unreadCrew.Unresolved crewToB false
      ∧ ∃ error, unreadCrew.carryOut crewToB none false = (.error (.failed error), unreadCrew) := by
  have hreads : mixedCrew.storage.Readable :=
    ⟨fun _ => rfl, fun _ => rfl, fun _ => rfl⟩
  have hfails : unreadCrew.Unresolved crewToB false := .inl ⟨"crew", rfl, by decide +kernel⟩
  refine ⟨⟨hreads, ?_⟩, hfails, (carryOut_sends unreadCrew crewToB none false).1.1 hfails⟩
  obtain ⟨d, -, hhangs, -⟩ | hsent := (carryOut_sends mixedCrew crewToB none false).2 hreads
  · exact absurd hhangs.2 List.not_mem_nil
  · exact hsent

/-- The stored device is registered where it goes, and the device without an instance stays. -/
example : (mixedCrew.carryOut crewToB none false).2.post? "dev-2" = some "B"
    ∧ (mixedCrew.carryOut crewToB none false).2.post? "dev-3" = none := by decide +kernel

/-! ## How many moves are answered -/

/-- As many entries of a list are among given elements as there are such elements exactly when each of
    these is listed once. -/
theorem countP_mem_eq_length_iff {α : Type} [DecidableEq α] {chosen l : List α}
    (hnodup : chosen.Nodup) (hlisted : ∀ x ∈ chosen, x ∈ l) :
    l.countP (fun x => decide (x ∈ chosen)) = chosen.length ↔ ∀ x ∈ chosen, l.count x = 1 := by
  have hcount : ∀ x ∈ chosen, (l.filter fun x => decide (x ∈ chosen)).count x = l.count x := by
    intro x hx
    rw [List.count_filter (by simpa using hx)]
  have hsub : chosen ⊆ l.filter fun x => decide (x ∈ chosen) := by
    intro x hx
    simpa [hx] using hlisted x hx
  rw [List.countP_eq_length_filter]
  constructor
  · intro hlength x hx
    -- the chosen elements fill the entries, and none is left for a second time
    have hperm := (hnodup.subperm hsub).perm_of_length_le (Nat.le_of_eq hlength)
    rw [← hcount x hx, ← hperm.count_eq, hnodup.count, if_pos hx]
  · intro honce
    have hperm : (l.filter fun x => decide (x ∈ chosen)).Perm chosen := by
      refine List.perm_iff_count.2 fun x => ?_
      by_cases hx : x ∈ chosen
      · rw [hcount x hx, honce x hx, hnodup.count, if_pos hx]
      · rw [List.count_eq_zero_of_not_mem hx, List.count_eq_zero_of_not_mem (by simp [hx])]
    exact hperm.length_eq

/-- A rule that comes to an end counts a reassignment for each device that changed its instance. What it
    answers is how often it was about one of these devices: the number of the devices exactly when it is
    about each of them once, and more when a group lists one of them again. -/
theorem carryOut_counts (f : Fleet) (a : Assignment) (completed : Option String) (force : Bool)
    {moved : Nat} {g : Fleet} (hcarried : f.carryOut a completed force = (.ok moved, g)) :
    ∃ uuids : List String, uuids.Nodup ∧ (∀ uuid, uuid ∈ uuids ↔ f.Changes g uuid)
      ∧ g.metrics.reassignments = f.metrics.reassignments + uuids.length
      ∧ moved = (f.targeted a force).countP (fun uuid => decide (uuid ∈ uuids))
      ∧ (moved = uuids.length ↔ ∀ uuid ∈ uuids, (f.targeted a force).count uuid = 1) := by
  obtain ⟨hobeyed, hmoved⟩ := obeyed_of_carryOut hcarried
  obtain ⟨uuids, hnodup, hmem, hcount⟩ := hobeyed.movesOnce
  have hlisted : moved = (f.targeted a force).countP fun uuid => decide (uuid ∈ uuids) := by
    rw [hmoved, ordered, List.countP_filter]
    refine List.countP_congr fun uuid htargeted => ?_
    rw [decide_eq_true_eq, hmem, hobeyed.changes_iff, ordered, List.mem_filter, Bool.and_eq_true,
      and_iff_right htargeted, and_comm]
  refine ⟨uuids, hnodup, hmem, hcount, hlisted, ?_⟩
  rw [hlisted]
  refine countP_mem_eq_length_iff hnodup fun uuid huuid => ?_
  exact (mem_ordered_iff.1 ((hobeyed.changes_iff uuid).1 ((hmem uuid).1 huuid)).1).1

/-- A device, and a group that lists it twice. -/
def twiceListed : Fleet where
  storage := { tables := .ofSeed { groups := [⟨"crew", ["dev-1", "dev-1"]⟩] } }
  definitions := .ofList [⟨"A", .circlePokemon, {}⟩, ⟨"B", .circlePokemon, {}⟩]
  devices := .ofList [{ uuid := "dev-1", instanceName := some "A" }]

theorem carryOut_twiceListed :
    twiceListed.carryOut crewToB none false
      = (.ok 2, (twiceListed.carryOut crewToB none false).2) :=
  Prod.ext (by decide +kernel) rfl

theorem carryOut_counts_twiceListed :
    let g := (twiceListed.carryOut crewToB none false).2
    twiceListed.carryOut crewToB none false = (.ok 2, g)
      ∧ ∃ uuids : List String, uuids.Nodup ∧ (∀ uuid, uuid ∈ uuids ↔ twiceListed.Changes g uuid)
        ∧ g.metrics.reassignments = twiceListed.metrics.reassignments + uuids.length
        ∧ 2 = (twiceListed.targeted crewToB false).countP (fun uuid => decide (uuid ∈ uuids))
        ∧ (2 = uuids.length
          ↔ ∀ uuid ∈ uuids, (twiceListed.targeted crewToB false).count uuid = 1) :=
  ⟨carryOut_twiceListed, carryOut_counts twiceListed crewToB none false carryOut_twiceListed⟩

/-- One device moves and two moves are answered. -/
theorem overcounts_twiceListed :
    ¬ ∀ moved g, twiceListed.carryOut crewToB none false = (.ok moved, g) →
      ∃ uuids : List String, uuids.Nodup ∧ (∀ uuid, uuid ∈ uuids ↔ twiceListed.Changes g uuid)
        ∧ moved = uuids.length
        ∧ g.metrics.reassignments = twiceListed.metrics.reassignments + moved := by
  intro hall
  obtain ⟨uuids, hnodup, hmem, hlength, -⟩ := hall 2 _ carryOut_twiceListed
  have hobeyed := (obeyed_of_carryOut carryOut_twiceListed).1
  have hordered : twiceListed.ordered crewToB none false = ["dev-1", "dev-1"] := by decide +kernel
  have hone : uuids ⊆ ["dev-1"] := by
    intro uuid huuid
    have hchanged := ((hobeyed.changes_iff uuid).1 ((hmem uuid).1 huuid)).1
    rw [hordered] at hchanged
    simpa using hchanged
  have hle : uuids.length ≤ 1 := (hnodup.subperm hone).length_le
  omega

end Fleet

end ScanFleet
