import ScanFleet.Proofs.Fleet.Following

set_option autoImplicit false

/-! # Completions move one instance, one step

A rule that is fired because an instance completed its pass moves only devices that work for that
instance, and to another one. So after a rule has moved a device, none of the later rules does: the
first rule that applies decides, rules do not chain, and no other device is dragged along. -/

namespace ScanFleet

namespace Fleet

variable {f g : Fleet} {name : String}

/-- A completion rule moves the devices that it names, off the completed instance. -/
theorem applies_completed_iff {a : Assignment} {d : Device} (hworks : d.worksFor name = true) :
    f.applies (some name) a d = true ↔
      a.source.all (· == name) = true ∧ f.names a d.uuid = true
        ∧ f.definitions.has a.target = true ∧ a.target ≠ name := by
  have hname : d.instanceName = some name := by simpa [Device.worksFor] using hworks
  have hon : d.worksFor = (· == name) := by
    funext other
    simp [Device.worksFor, hname, Bool.beq_comm]
  unfold applies Assignment.moves
  simp only [hon, Option.all_some, beq_self_eq_true, Bool.and_true, Bool.false_or, Bool.and_eq_true,
    Bool.not_eq_true', beq_eq_false_iff_ne]
  constructor
  · rintro ⟨⟨hnamed, hdefined⟩, hoff, hsource⟩
    exact ⟨hsource, hnamed, hdefined, hoff⟩
  · rintro ⟨hsource, hnamed, hdefined, hoff⟩
    exact ⟨⟨hnamed, hdefined⟩, hoff, hsource⟩

/-- A device of another instance is not moved. -/
theorem worksFor_of_applies {a : Assignment} {d : Device}
    (happlies : f.applies (some name) a d = true) : d.worksFor name = true := by
  have hmoves := (Bool.and_eq_true_iff.1 happlies).2
  unfold Assignment.moves at hmoves
  simpa using (Bool.and_eq_true_iff.1 (Bool.and_eq_true_iff.1 hmoves).2).2

/-- A device that was moved is not moved again. -/
theorem not_applies_of_sent {a b : Assignment} {d : Device}
    (happlies : f.applies (some name) a d = true) :
    ¬ f.applies (some name) b (d.assign (some a.target)) = true := by
  intro hagain
  have hoff := ((applies_completed_iff (worksFor_of_applies happlies)).1 happlies).2.2.2
  refine hoff ?_
  simpa [Device.worksFor, Device.assign] using worksFor_of_applies hagain

/-- The first rule that applies decides where a device goes. -/
theorem follow_completed (rules : List Assignment) (d : Device) :
    f.follow (some name) rules d
      = ((rules.find? (f.applies (some name) · d)).map fun a => d.assign (some a.target)).getD d := by
  induction rules with
  | nil => rfl
  | cons a rest ih =>
    rw [List.find?_cons]
    cases happlies : f.applies (some name) a d with
    | true =>
      have hrest : f.follow (some name) rest (d.assign (some a.target)) = d.assign (some a.target) :=
        follow_of_not_moves fun ⟨b, _, hagain⟩ => not_applies_of_sent happlies hagain
      unfold follow at hrest ⊢
      rw [List.foldl_cons, happlies, if_pos rfl, hrest]
      rfl
    | false =>
      unfold follow at ih ⊢
      rw [List.foldl_cons, happlies]
      exact ih

/-- The devices follow the rules of a completion, and each is moved once at most. -/
theorem followed_fireCompletion (hf : f.storage.Responsive) (name : String)
    (rules : List Assignment) :
    ∃ moved g, f.fireCompletion name rules = (.ok moved, g) ∧ f.Followed (some name) rules g
      ∧ MovesOnce f g fun uuid =>
        ∃ device, f.device? uuid = some device ∧ f.Moves (some name) rules device := by
  induction rules generalizing f with
  | nil =>
    refine ⟨0, f, rfl, followed_nil hf _, movesOnce_none rfl ?_⟩
    rintro uuid ⟨device, -, a, ha, -⟩
    cases ha
  | cons a rest ih =>
    obtain ⟨moved, g, hfirst, hfollowed, honce⟩ :=
      followed_carryOut (f := f.countTrigger .completion) hf a (some name)
    have hfollowed : f.Followed (some name) [a] g := hfollowed.of_metrics
    have honce : MovesOnce f g fun uuid =>
        ∃ device, f.device? uuid = some device ∧ f.Moves (some name) [a] device := honce
    obtain ⟨others, h, hrest, hlater, hothers⟩ := ih hfollowed.alike.responsive
    refine ⟨moved + others, h, ?_, hfollowed.append hf hlater, ?_⟩
    · rw [fireCompletion, hfirst]
      dsimp only
      rw [hrest]
    -- what the later rules find is what the first rule left
    have hleft : ∀ uuid, (∃ device, g.device? uuid = some device ∧ g.Moves (some name) rest device)
        ↔ ∃ device, f.device? uuid = some device
          ∧ f.Moves (some name) rest (f.follow (some name) [a] device) := by
      intro uuid
      rw [hfollowed.device?_eq]
      cases f.device? uuid with
      | none => simp
      | some device => simp [hfollowed.alike.moves_iff hf]
    refine (honce.append hothers fun uuid hmoved hagain => ?_).congr fun uuid => ?_
    · obtain ⟨device, hdevice, b, hb, happlies⟩ := hmoved
      obtain rfl := List.mem_singleton.1 hb
      obtain ⟨other, hother, c, -, hagain⟩ := (hleft uuid).1 hagain
      rw [hdevice] at hother
      obtain rfl := Option.some.inj hother
      refine not_applies_of_sent happlies (b := c) ?_
      unfold follow at hagain
      rwa [List.foldl_cons, happlies, if_pos rfl] at hagain
    · rw [hleft]
      cases hdevice : f.device? uuid with
      | none => simp
      | some device => simp [← moves_append_iff]

end Fleet

namespace Station

/-- The rule that relieves a device of a completed instance: the first that holds today, waits for
    this instance or for any, names the device, and has another defined instance for target. -/
def relief? (s : Station) (name : String) (today : Date) (uuid : String) : Option Assignment :=
  s.schedule.rules.find? fun a =>
    a.enabled && a.onCompletion && a.source.all (· == name) && a.holdsOn today
      && s.fleet.names a uuid && s.fleet.definitions.has a.target && a.target != name

/-- The device as it is after the completion, if it was relieved. -/
def relieved? (s : Station) (name : String) (today : Date) (uuid : String) : Option Device :=
  (s.fleet.device? uuid).bind fun device =>
    if device.worksFor name then
      (s.relief? name today uuid).map fun a => device.assign (some a.target)
    else none

variable {s : Station} {name : String} {today : Date}

/-- The completion rules that apply to a device of the instance are those that relieve it. -/
theorem find?_completionRules {device : Device} (hworks : device.worksFor name = true) :
    (s.schedule.completionRules name today).find? (s.fleet.applies (some name) · device)
      = s.relief? name today device.uuid := by
  unfold Schedule.completionRules relief?
  rw [List.find?_filter]
  congr 1
  funext a
  rw [Bool.eq_iff_iff]
  simp only [Bool.and_eq_true, decide_eq_true_eq, Fleet.applies_completed_iff hworks, bne_iff_ne,
    ne_eq, and_assoc]
  constructor
  · rintro ⟨henabled, hwaits, hsource, hholds, -, hrest⟩
    exact ⟨henabled, hwaits, hsource, hholds, hrest⟩
  · rintro ⟨henabled, hwaits, hsource, hholds, hrest⟩
    exact ⟨henabled, hwaits, hsource, hholds, hsource, hrest⟩

/-- The devices that are relieved are those that some completion rule moves. -/
theorem relieved?_eq {uuid : String} {device : Device} (hdevice : s.fleet.device? uuid = some device) :
    s.relieved? name today uuid
      = ((s.schedule.completionRules name today).find?
          (s.fleet.applies (some name) · device)).map fun a => device.assign (some a.target) := by
  obtain rfl := Fleet.uuid_of_device? hdevice
  unfold relieved?
  rw [hdevice, Option.bind_some]
  cases hworks : device.worksFor name with
  | true =>
    rw [find?_completionRules hworks]
    rfl
  | false =>
    have hnone : (s.schedule.completionRules name today).find?
        (s.fleet.applies (some name) · device) = none := by
      refine List.find?_eq_none.2 fun a _ happlies => ?_
      rw [Fleet.worksFor_of_applies happlies] at hworks
      cases hworks
    rw [hnone]
    rfl

theorem isSome_relieved?_iff {uuid : String} :
    (s.relieved? name today uuid).isSome = true ↔ ∃ device, s.fleet.device? uuid = some device
      ∧ s.fleet.Moves (some name) (s.schedule.completionRules name today) device := by
  cases hdevice : s.fleet.device? uuid with
  | none => simp [relieved?, hdevice]
  | some device =>
    rw [relieved?_eq hdevice, Option.isSome_map, List.find?_isSome]
    simp [Fleet.Moves]

/-- When reads are answered and writes end, a completion comes to an end. A device that worked for the
    completed instance goes to the target of the first rule that relieves it, if there is one, and every
    other device stays as it was known. Each of the devices that went moved once. -/
theorem complete_relieves (s : Station) (name : String) {today : Date} (htoday : s.today? = some today)
    (hstorage : s.fleet.storage.Responsive) :
    ∃ moved t, s.complete name = (.ok moved, t)
      ∧ (∀ uuid, t.fleet.devices.get? uuid
          = (s.relieved? name today uuid).or (s.fleet.devices.get? uuid))
      ∧ s.fleet.MovesOnce t.fleet fun uuid => (s.relieved? name today uuid).isSome = true := by
  obtain ⟨moved, g, heq, hfollowed, honce⟩ :=
    Fleet.followed_fireCompletion hstorage name (s.schedule.completionRules name today)
  refine ⟨moved, { s with fleet := g }, ?_, fun uuid => ?_,
    honce.congr fun uuid => isSome_relieved?_iff⟩
  · rw [complete, htoday]
    dsimp only
    rw [heq]
    rfl
  · rcases hfollowed.get?_eq uuid with ⟨device, hdevice, hmoves, hget⟩ | ⟨hidle, hget⟩
    · have hsome := isSome_relieved?_iff.2 ⟨device, hdevice, hmoves⟩
      rw [relieved?_eq hdevice, Option.isSome_map] at hsome
      obtain ⟨a, ha⟩ := Option.isSome_iff_exists.1 hsome
      rw [hget, relieved?_eq hdevice, Fleet.follow_completed, ha]
      rfl
    · have hnone : s.relieved? name today uuid = none :=
        Option.not_isSome_iff_eq_none.1 fun hsome => hidle (isSome_relieved?_iff.1 hsome)
      rw [hget, hnone, Option.none_or]

/-- Rules that lead from the first circle to the second and on to the third, one of them for every
    device of a group that names a device of the second circle as well. -/
def chained : Station :=
  let s := ofTables (.ofSeed {
    instances := [⟨"A", .circlePokemon, {}⟩, ⟨"B", .circlePokemon, {}⟩, ⟨"C", .circlePokemon, {}⟩]
    devices := [{ uuid := "dev-1", instanceName := some "A" },
      { uuid := "dev-2", instanceName := some "B" }]
    groups := [⟨"all", ["dev-1", "dev-2", "dev-1"]⟩] }) {}
  { s with
    fleet := (s.fleet.start s.now).2
    schedule := { rules := [
      { id := 1, target := "A", device := some "dev-1" },
      { id := 2, target := "B", source := some "A", group := some "all" },
      { id := 3, target := "C", group := some "all" }] } }

/-- The first day of the calendar's count. -/
def epoch : Date := ⟨0, by decide, by decide⟩

theorem complete_chained :
    chained.today? = some epoch ∧ chained.fleet.storage.Responsive ∧
      ∃ moved t, chained.complete "A" = (.ok moved, t)
        ∧ (∀ uuid, t.fleet.devices.get? uuid
            = (chained.relieved? "A" epoch uuid).or (chained.fleet.devices.get? uuid))
        ∧ chained.fleet.MovesOnce t.fleet fun uuid =>
            (chained.relieved? "A" epoch uuid).isSome = true := by
  have htoday : chained.today? = some epoch := by decide +kernel
  have hstorage : chained.fleet.storage.Responsive :=
    ⟨fun _ => rfl, fun _ => rfl, fun _ => rfl, by decide +kernel⟩
  exact ⟨htoday, hstorage, complete_relieves chained "A" htoday hstorage⟩

/-- The device of the first circle goes one step, and the other one stays. -/
example : (chained.complete "A").2.fleet.post? "dev-1" = some "B" ∧
    (chained.complete "A").2.fleet.post? "dev-2" = some "B" := by decide +kernel

end Station

end ScanFleet
