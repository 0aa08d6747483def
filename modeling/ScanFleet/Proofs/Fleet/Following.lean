import ScanFleet.Proofs.Fleet.CarryOut

set_option autoImplicit false

/-! # Following rules

A rule looks at each device that it names on its own: at the instance that the device works for, as
the fleet knows it or else as it is stored. So what rules do to a fleet is told device by device: each
follows the rules in their order (`Fleet.follow`), whatever becomes of the others. -/

namespace ScanFleet

namespace Fleet

variable {f g h : Fleet}

/-! ## What rules mean -/

/-- A fleet after another, in which rules still mean the same. -/
structure Alike (f g : Fleet) : Prop where
  definitions : g.definitions = f.definitions
  groups : g.storage.tables.groups = f.storage.tables.groups
  responsive : g.storage.Responsive

theorem Alike.refl (hf : f.storage.Responsive) : Alike f f := ⟨rfl, rfl, hf⟩

theorem Alike.trans (hfg : Alike f g) (hgh : Alike g h) : Alike f h where
  definitions := hgh.definitions.trans hfg.definitions
  groups := hgh.groups.trans hfg.groups
  responsive := hgh.responsive

theorem Aside.alike (hfg : f.Aside g) (hf : f.storage.Responsive) : Alike f g where
  definitions := hfg.definitions
  groups := hfg.groups
  responsive := by
    obtain ⟨devices, stored, jobs, metrics, rfl⟩ := hfg
    exact ⟨hf.group, hf.device, hf.devices, hf.ends⟩

/-- An unforced rule names the devices that it is about. -/
theorem names_iff (hf : f.storage.Responsive) (a : Assignment) (uuid : String) :
    f.names a uuid = true ↔ uuid ∈ f.targeted a false := by
  unfold names Assignment.names targeted
  cases a.scope with
  | device other =>
    rw [beq_iff_eq, List.mem_singleton, eq_comm]
  | group name =>
    dsimp only
    rw [List.contains_iff_mem, Storage.members, Storage.group?, Storage.read_eq (hf.group name)]
    cases f.storage.tables.groups.get? name with
    | none => rfl
    | some group => rfl
  | unspecified => simp

theorem Alike.names_eq (hf : f.storage.Responsive) (hfg : Alike f g) (a : Assignment)
    (uuid : String) : g.names a uuid = f.names a uuid := by
  rw [Bool.eq_iff_iff, names_iff hf, names_iff hfg.responsive, targeted, targeted, hfg.groups]
  rfl

/-- A rule moves a device, if it is carried out unforced. -/
def applies (f : Fleet) (completed : Option String) (a : Assignment) (d : Device) : Bool :=
  f.names a d.uuid && f.definitions.has a.target && a.moves completed false d

theorem Alike.applies_eq (hf : f.storage.Responsive) (hfg : Alike f g) (completed : Option String)
    (a : Assignment) (d : Device) : g.applies completed a d = f.applies completed a d := by
  rw [applies, applies, hfg.names_eq hf, hfg.definitions]

/-- The devices that a rule moves are those that it orders and that can be sent. -/
theorem ordered_iff_applies (hf : f.storage.Responsive) {a : Assignment} {completed : Option String}
    {uuid : String} {device : Device} (hdevice : f.device? uuid = some device) :
    uuid ∈ f.ordered a completed false ∧ f.canFollow uuid a.target = true
      ↔ f.applies completed a device = true := by
  obtain rfl := uuid_of_device? hdevice
  have hfollows : f.canFollow device.uuid a.target = f.definitions.has a.target := by
    simp [canFollow, reach?_eq_device? (hf.device device.uuid), hdevice]
  rw [mem_ordered_iff, ← names_iff hf, hfollows, applies, hdevice]
  simp only [Option.some.injEq, exists_eq_left', Bool.and_eq_true]
  constructor
  · rintro ⟨⟨hnamed, hmoves⟩, hdefined⟩
    exact ⟨⟨hnamed, hdefined⟩, hmoves⟩
  · rintro ⟨⟨hnamed, hdefined⟩, hmoves⟩
    exact ⟨⟨hnamed, hmoves⟩, hdefined⟩

/-! ## Many rules -/

/-- A device after it followed rules one after another. -/
def follow (f : Fleet) (completed : Option String) (rules : List Assignment) (d : Device) : Device :=
  rules.foldl (fun d a => if f.applies completed a d then d.assign (some a.target) else d) d

/-- Some rule moves a device as it is. Then the device moves, be it by that rule or by another. -/
def Moves (f : Fleet) (completed : Option String) (rules : List Assignment) (d : Device) : Prop :=
  ∃ a ∈ rules, f.applies completed a d = true

/-- A fleet after its devices followed rules. Those that were only stored are registered when they
    move. -/
structure Followed (f : Fleet) (completed : Option String) (rules : List Assignment) (g : Fleet) :
    Prop where
  alike : Alike f g
  device?_eq : ∀ uuid, g.device? uuid = (f.device? uuid).map (f.follow completed rules)
  has_iff : ∀ uuid, g.devices.has uuid = true ↔
    f.devices.has uuid = true
      ∨ ∃ device, f.device? uuid = some device ∧ f.Moves completed rules device

variable {completed : Option String}

theorem follow_append (f : Fleet) (completed : Option String) (rules others : List Assignment)
    (d : Device) :
    f.follow completed (rules ++ others) d = f.follow completed others (f.follow completed rules d) :=
  List.foldl_append

/-- A device that no rule moves stays as it is. -/
theorem follow_of_not_moves {rules : List Assignment} {d : Device}
    (hidle : ¬ f.Moves completed rules d) : f.follow completed rules d = d := by
  induction rules with
  | nil => rfl
  | cons a rest ih =>
    have hfirst : ¬ f.applies completed a d = true :=
      fun happlies => hidle ⟨a, List.mem_cons_self, happlies⟩
    have hrest : f.follow completed rest d = d :=
      ih fun ⟨b, hb, happlies⟩ => hidle ⟨b, List.mem_cons_of_mem a hb, happlies⟩
    unfold follow at hrest ⊢
    rw [List.foldl_cons, if_neg hfirst]
    exact hrest

/-- A device that the earlier rules do not move meets the later ones as it is. -/
theorem moves_append_iff {rules others : List Assignment} {d : Device} :
    f.Moves completed (rules ++ others) d ↔
      f.Moves completed rules d ∨ f.Moves completed others (f.follow completed rules d) := by
  by_cases hmoves : f.Moves completed rules d
  · obtain ⟨a, ha, happlies⟩ := hmoves
    exact iff_of_true ⟨a, List.mem_append_left others ha, happlies⟩ (.inl ⟨a, ha, happlies⟩)
  · rw [follow_of_not_moves hmoves]
    constructor
    · rintro ⟨a, ha, happlies⟩
      rcases List.mem_append.1 ha with hfirst | hlater
      · exact .inl ⟨a, hfirst, happlies⟩
      · exact .inr ⟨a, hlater, happlies⟩
    · rintro (hnow | ⟨a, ha, happlies⟩)
      · exact absurd hnow hmoves
      · exact ⟨a, List.mem_append_right rules ha, happlies⟩

theorem Alike.follow_eq (hf : f.storage.Responsive) (hfg : Alike f g) (rules : List Assignment)
    (d : Device) : g.follow completed rules d = f.follow completed rules d := by
  unfold follow
  simp only [hfg.applies_eq hf]

theorem Alike.moves_iff (hf : f.storage.Responsive) (hfg : Alike f g) {rules : List Assignment}
    {d : Device} : g.Moves completed rules d ↔ f.Moves completed rules d := by
  unfold Moves
  simp only [hfg.applies_eq hf]

namespace Followed

variable {rules others : List Assignment}

theorem append (hf : f.storage.Responsive) (hfg : f.Followed completed rules g)
    (hgh : g.Followed completed others h) : f.Followed completed (rules ++ others) h where
  alike := hfg.alike.trans hgh.alike
  device?_eq uuid := by
    rw [hgh.device?_eq, hfg.device?_eq, Option.map_map]
    congr 1
    funext device
    rw [Function.comp_apply, hfg.alike.follow_eq hf, follow_append]
  has_iff uuid := by
    rw [hgh.has_iff, hfg.has_iff, hfg.device?_eq]
    cases f.device? uuid with
    | none => simp
    | some device =>
      simp only [Option.map_some, Option.some.injEq, exists_eq_left', hfg.alike.moves_iff hf,
        moves_append_iff, or_assoc]

end Followed

/-- What the fleet knows of a device that no rule moves does not change, and a device that is moved is
    known where it went. -/
theorem Followed.get?_eq {rules : List Assignment} {completed : Option String}
    (hfg : f.Followed completed rules g) (uuid : String) :
    (∃ device, f.device? uuid = some device ∧ f.Moves completed rules device
        ∧ g.devices.get? uuid = some (f.follow completed rules device))
      ∨ (¬ ∃ device, f.device? uuid = some device ∧ f.Moves completed rules device)
        ∧ g.devices.get? uuid = f.devices.get? uuid := by
  by_cases hmoves : ∃ device, f.device? uuid = some device ∧ f.Moves completed rules device
  · obtain ⟨device, hdevice, hmoved⟩ := hmoves
    refine .inl ⟨device, hdevice, hmoved, ?_⟩
    rw [get?_devices, if_pos ((hfg.has_iff uuid).2 (.inr ⟨device, hdevice, hmoved⟩)),
      hfg.device?_eq, hdevice, Option.map_some]
  · refine .inr ⟨hmoves, ?_⟩
    have hstays : g.device? uuid = f.device? uuid := by
      rw [hfg.device?_eq]
      cases hdevice : f.device? uuid with
      | none => rfl
      | some device =>
        rw [Option.map_some, follow_of_not_moves fun hmoved => hmoves ⟨device, hdevice, hmoved⟩]
    have hknown : g.devices.has uuid = f.devices.has uuid := by
      rw [Bool.eq_iff_iff, hfg.has_iff]
      exact or_iff_left hmoves
    rw [get?_devices, get?_devices, hstays, hknown]

theorem followed_nil (hf : f.storage.Responsive) (completed : Option String) :
    f.Followed completed [] f where
  alike := .refl hf
  device?_eq uuid := by
    cases f.device? uuid with
    | none => rfl
    | some device => rfl
  has_iff uuid := by simp [Moves]

/-- Whether triggers are counted does not matter to the devices. -/
theorem Followed.of_metrics {metrics : Metrics} {rules : List Assignment}
    (hfg : ({ f with metrics } : Fleet).Followed completed rules g) :
    f.Followed completed rules g where
  alike := ⟨hfg.alike.definitions, hfg.alike.groups, hfg.alike.responsive⟩
  device?_eq := hfg.device?_eq
  has_iff := hfg.has_iff

/-- The devices follow a rule that is carried out, and each that moves is counted. -/
theorem followed_carryOut (hf : f.storage.Responsive) (a : Assignment) (completed : Option String) :
    ∃ moved g, f.carryOut a completed false = (.ok moved, g) ∧ f.Followed completed [a] g
      ∧ MovesOnce f g fun uuid =>
        ∃ device, f.device? uuid = some device ∧ f.Moves completed [a] device := by
  have hresolved : ¬ f.Unresolved a false := not_unresolved_of_readable hf.readable
  obtain ⟨⟨uuid, -, -, hhangs⟩, -⟩ | ⟨-, g, heq, hobeyed⟩ := carryOut_outcome completed hresolved
  · exact absurd hhangs (hf.not_hangs uuid)
  have halike := hobeyed.aside.alike hf
  have hmoves : ∀ device, f.Moves completed [a] device ↔ f.applies completed a device = true := by
    intro device
    simp [Moves]
  have hreach := fun uuid => reach?_eq_device? (hf.device uuid)
  -- of a device that is neither known nor stored nothing is told
  have hnobody : ∀ uuid, f.device? uuid = none → f.canFollow uuid a.target = false := by
    intro uuid hnone
    simp [canFollow, hreach, hnone]
  refine ⟨_, g, heq, ⟨halike, fun uuid => ?_, fun uuid => ?_⟩, hobeyed.movesOnce.congr fun uuid => ?_⟩
  · rw [← reach?_eq_device? (halike.responsive.device uuid), hobeyed.reach?_eq, hreach]
    cases hdevice : f.device? uuid with
    | none => simp
    | some device =>
      simp only [ordered_iff_applies hf hdevice, Option.map_some, ← apply_ite some]
      rfl
  · rw [Table.has, Table.has, hobeyed.get?_eq, hreach]
    cases hdevice : f.device? uuid with
    | none => simp [hnobody uuid hdevice]
    | some device =>
      simp only [ordered_iff_applies hf hdevice, Option.some.injEq, exists_eq_left', hmoves]
      by_cases happlies : f.applies completed a device = true
      · simp [happlies]
      · simp [happlies]
  · rw [hobeyed.changes_iff]
    cases hdevice : f.device? uuid with
    | none =>
      simp [setsOut, hreach, hdevice]
    | some device =>
      simp only [Option.some.injEq, exists_eq_left', hmoves, ← ordered_iff_applies hf hdevice]
      exact and_congr_right fun hmem => by rw [canFollow_eq_setsOut hmem]

theorem followed_carryOutAll (hf : f.storage.Responsive) (rules : List Assignment) :
    ∃ moved, (f.carryOutAll rules).1 = some moved
      ∧ f.Followed none rules (f.carryOutAll rules).2 := by
  induction rules generalizing f with
  | nil => exact ⟨0, rfl, followed_nil hf none⟩
  | cons a rest ih =>
    obtain ⟨moved, g, hfirst, hfollowed, -⟩ := followed_carryOut hf a none
    obtain ⟨others, hothers, hrest⟩ := ih hfollowed.alike.responsive
    refine ⟨moved + others, ?_, ?_⟩
    · rw [carryOutAll, hfirst]
      dsimp only
      rw [hothers]
      rfl
    · rw [carryOutAll_cons, hfirst]
      exact hfollowed.append hf hrest

/-- The devices follow the rules of a tick in the order in which these are listed. -/
theorem followed_fireDue (hf : f.storage.Responsive) (due : List Assignment) :
    ∃ moved, (f.fireDue due).1 = some moved ∧ f.Followed none due (f.fireDue due).2 := by
  obtain ⟨metrics, hcounted⟩ := f.foldl_countTrigger due
  unfold fireDue
  rw [hcounted]
  obtain ⟨moved, hmoved, hfollowed⟩ :=
    followed_carryOutAll (f := { f with metrics }) hf due
  exact ⟨moved, hmoved, hfollowed.of_metrics⟩

end Fleet

end ScanFleet
