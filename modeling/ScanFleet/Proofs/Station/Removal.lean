import ScanFleet.Proofs.Fleet.Withdrawal
import ScanFleet.Proofs.Station.Placement

set_option autoImplicit false

/-! # Removing an instance

A station that removes an instance releases its devices, and then a startup pass places them anew,
together with all others that work for no instance. A rule that targets the removed instance may still
be the one that the pass picks for a device. The instance is not defined any more by then, so that the
device stays without one (`Station.Picks`). -/

namespace ScanFleet

namespace Fleet

variable {f g : Fleet} {rules : List Assignment} {name : String}

/-- A startup pass is to put a device onto the target of the rule picked for it. -/
def Lands (f : Fleet) (rules : List Assignment) (d : Device) (target : String) : Prop :=
  d.instanceName = none
    ∧ ∃ a, f.placing? rules d.uuid = some a ∧ a.target = target ∧ f.definitions.has target = true

/-- After a startup pass a device is where it lands, with its row, or where it was. -/
theorem lands_or_stays (hwrites : f.storage.Writable)
    (hobeyed : f.Obeyed (f.destination rules) ((f.summoned rules).map (·.uuid)) g) (uuid : String) :
    (∃ d target, f.devices.get? uuid = some d ∧ f.Lands rules d target
        ∧ g.devices.get? uuid = some (d.assign (some target))
        ∧ g.storage.tables.devices.get? uuid = g.devices.get? uuid)
      ∨ (∀ d target, f.devices.get? uuid = some d → ¬ f.Lands rules d target)
        ∧ g.devices.get? uuid = f.devices.get? uuid
        ∧ g.storage.tables.devices.get? uuid = f.storage.tables.devices.get? uuid := by
  have hrelocated := relocated_of_obeyed hobeyed
  by_cases hlands : ∃ d target, f.devices.get? uuid = some d ∧ f.Lands rules d target
  · obtain ⟨d, target, hget, hfree, a, hplacing, rfl, hdefined⟩ := hlands
    obtain rfl : d.uuid = uuid := Table.key_of_get? hget
    have hdestination : f.destination rules d.uuid = a.target := by
      rw [destination, hplacing]
      rfl
    obtain ⟨hthere, hrow⟩ := hrelocated.there d a.target
      ⟨mem_placed_iff.2 ⟨hget, hfree, a, hplacing, hdefined⟩, hdestination⟩
    rw [hwrites.up, if_neg Bool.false_ne_true] at hrow
    exact .inl ⟨d, a.target, hget, ⟨hfree, a, hplacing, rfl, hdefined⟩, hthere,
      hrow.trans hthere.symm⟩
  · have hstays : ¬ ∃ d target, d.uuid = uuid ∧ d ∈ f.placed rules
        ∧ f.destination rules d.uuid = target := by
      rintro ⟨d, target, rfl, hd, -⟩
      obtain ⟨hget, hfree, a, hplacing, hdefined⟩ := mem_placed_iff.1 hd
      exact hlands ⟨d, a.target, hget, hfree, a, hplacing, rfl, hdefined⟩
    exact .inr ⟨fun d target hget hland => hlands ⟨d, target, hget, hland⟩,
      hrelocated.others uuid hstays⟩

/-- An instance that hands its devices over to others has none left. -/
theorem HandsOver.post?_ne {other : Option String} (h : f.HandsOver name other g)
    (hother : other ≠ some name) (uuid : String) : g.post? uuid ≠ some name := by
  by_cases hpost : f.post? uuid = some name
  · obtain ⟨d, hget, hname⟩ := exists_device_of_post hpost
    rw [post?, h.moved uuid d hget hname]
    exact hother
  · rw [post?, h.kept uuid hpost]
    exact hpost

end Fleet

namespace Station

/-- The startup pass after the removal of an instance puts a free device onto a target. -/
structure Picks (s : Station) (name : String) (today : Date) (uuid target : String) : Prop where
  chosen : ∃ a, IsLatest s.schedule.rules (s.Suits today s.localSecond uuid) a ∧ a.target = target
  defined : s.fleet.definitions.has target = true
  other : target ≠ name

/-- A station after an instance was removed and the free devices were placed. -/
structure Releases (s : Station) (name : String) (today : Date) (t : Station) : Prop where
  definitions : t.fleet.definitions = s.fleet.definitions.erase name
  jobs : t.fleet.jobs.has name = false
  former : ∀ job, s.fleet.jobs.get? name = some job → t.fleet.Retires job
  nobody : ∀ uuid, t.fleet.post? uuid ≠ some name
  /-- A released device is where the pass puts it, if anywhere, and so is its row. -/
  released : ∀ uuid d, s.fleet.devices.get? uuid = some d → d.instanceName = some name →
    ∃ other, (∀ target, other = some target ↔ s.Picks name today uuid target)
      ∧ t.fleet.devices.get? uuid = some (d.assign other)
      ∧ t.fleet.storage.tables.devices.get? uuid = t.fleet.devices.get? uuid
  /-- A device that was free before is placed like those that were released. -/
  free : ∀ uuid d, s.fleet.devices.get? uuid = some d → d.instanceName = none →
    ∃ other, (∀ target, other = some target ↔ s.Picks name today uuid target)
      ∧ t.fleet.devices.get? uuid = some (d.assign other)
  others : ∀ uuid k, s.fleet.post? uuid = some k → k ≠ name →
    t.fleet.devices.get? uuid = s.fleet.devices.get? uuid
      ∧ t.fleet.storage.tables.devices.get? uuid = s.fleet.storage.tables.devices.get? uuid
  schedule : t.schedule = { s.schedule with startupPasses := s.schedule.startupPasses + 1 }

variable {s : Station} {g : Fleet} {name : String} {today : Date}

/-- Which rules suit a device depends on the groups in storage, and not on the devices. -/
theorem suits_congr {fleet : Fleet}
    (hgroups : ∀ group, fleet.storage.group? group = s.fleet.storage.group? group) (second : Nat)
    (uuid : String) :
    ({ s with fleet } : Station).Suits today second uuid = s.Suits today second uuid := by
  funext a
  refine propext ⟨?_, ?_⟩
  · rintro ⟨henabled, hunsourced, hdue, hholds, hnames⟩
    refine ⟨henabled, hunsourced, hdue, hholds, ?_⟩
    simpa only [hgroups] using hnames
  · rintro ⟨henabled, hunsourced, hdue, hholds, hnames⟩
    refine ⟨henabled, hunsourced, hdue, hholds, ?_⟩
    simpa only [hgroups] using hnames

/-- The fleet of a station from which an instance was withdrawn. -/
structure Without (s : Station) (name : String) (g : Fleet) : Prop where
  devices : s.fleet.HandsOver name none g
  definitions : g.definitions = s.fleet.definitions.erase name
  jobs : g.jobs = s.fleet.jobs.erase name
  former : ∀ job, s.fleet.jobs.get? name = some job → g.Retires job
  writable : g.storage.Writable
  groups : ∀ group, g.storage.group? group = s.fleet.storage.group? group

theorem without_removeInstance (hwrites : s.fleet.storage.Writable)
    (hknown : s.fleet.definitions.has name = true ∨ s.fleet.jobs.has name = true) :
    ∃ g, s.fleet.removeInstance name = (.ok (), g) ∧ s.Without name g := by
  obtain ⟨metrics, heq⟩ := Fleet.removeInstance_eq hwrites hknown
  refine ⟨_, heq, Fleet.handsOver_of_withdraw rfl rfl, rfl, rfl, fun job hjob => ?_,
    hwrites.fileAll _, fun group => ?_⟩
  · refine Fleet.retires_of_mem (List.mem_append_right _ ?_)
    rw [hjob]
    exact List.mem_singleton.2 rfl
  · rw [Storage.fileAll_eq]
    rfl

/-- A free device lands where the pass after the removal picks a target for it. -/
theorem Without.lands_iff (h : s.Without name g) {d : Device} (hfree : d.instanceName = none)
    (target : String) :
    g.Lands (s.schedule.startupRules today s.localSecond) d target
      ↔ s.Picks name today d.uuid target := by
  have hplacing (a : Assignment) :
      g.placing? (s.schedule.startupRules today s.localSecond) d.uuid = some a
        ↔ IsLatest s.schedule.rules (s.Suits today s.localSecond d.uuid) a := by
    rw [← suits_congr h.groups]
    exact placing?_startupRules_iff (s := { s with fleet := g })
  have hdefined : g.definitions.has target = true
      ↔ s.fleet.definitions.has target = true ∧ target ≠ name := by
    rw [h.definitions, Table.has_erase, Bool.and_eq_true, decide_eq_true_eq, and_comm, ne_comm]
  constructor
  · rintro ⟨-, a, ha, rfl, hhas⟩
    exact ⟨⟨a, (hplacing a).1 ha, rfl⟩, (hdefined.1 hhas).1, (hdefined.1 hhas).2⟩
  · rintro ⟨⟨a, ha, rfl⟩, hhas, hother⟩
    exact ⟨hfree, a, (hplacing a).2 ha, rfl, hdefined.2 ⟨hhas, hother⟩⟩

/-- A free device is where the pass after the removal puts it, if anywhere. -/
theorem Without.placed (h : s.Without name g) {after : Fleet}
    (hobeyed : g.Obeyed (g.destination (s.schedule.startupRules today s.localSecond))
      ((g.summoned (s.schedule.startupRules today s.localSecond)).map (·.uuid)) after)
    {uuid : String} {d : Device} (hget : g.devices.get? uuid = some d)
    (hfree : d.instanceName = none) :
    ∃ other, (∀ target, other = some target ↔ s.Picks name today uuid target)
      ∧ after.devices.get? uuid = some (d.assign other)
      ∧ (g.storage.tables.devices.get? uuid = g.devices.get? uuid →
        after.storage.tables.devices.get? uuid = after.devices.get? uuid) := by
  obtain rfl : d.uuid = uuid := Table.key_of_get? hget
  obtain ⟨other, target, hother, hlands, hthere, hrow⟩ | ⟨hnever, hsame, hrow⟩ :=
    Fleet.lands_or_stays h.writable hobeyed d.uuid
  · rw [hget] at hother
    obtain rfl := Option.some.inj hother
    refine ⟨some target, fun goal => ⟨fun hgoal => ?_, fun hpicks => ?_⟩, hthere, fun _ => hrow⟩
    · rw [← Option.some.inj hgoal]
      exact (h.lands_iff hfree target).1 hlands
    · obtain ⟨-, a, ha, rfl, -⟩ := (h.lands_iff hfree goal).2 hpicks
      obtain ⟨-, b, hb, rfl, -⟩ := hlands
      rw [Option.some.inj (hb.symm.trans ha)]
  · refine ⟨none, fun goal => ⟨nofun, fun hpicks => ?_⟩, ?_, fun hfiled => ?_⟩
    · exact absurd ((h.lands_iff hfree goal).2 hpicks) (hnever d goal hget)
    · have hassign : d.assign none = d := by rw [← hfree]; rfl
      rw [hsame, hget, hassign]
    · rw [hrow, hsame, hfiled]

/-- The startup pass after a removal leaves the station without the instance, and the free devices
    placed. -/
theorem Without.releases (h : s.Without name g) {after : Fleet}
    (hobeyed : g.Obeyed (g.destination (s.schedule.startupRules today s.localSecond))
      ((g.summoned (s.schedule.startupRules today s.localSecond)).map (·.uuid)) after)
    (hsame : g.SameWork after) :
    s.Releases name today { s with schedule := s.schedule.countPass, fleet := after } where
  definitions := hsame.definitions.trans h.definitions
  jobs := by
    have hnone : g.jobs.get? name = none := by rw [h.jobs, Table.get?_erase, if_pos rfl]
    have hjobs := hsame.jobs name
    rw [hnone, Option.map_none, Option.map_eq_none_iff] at hjobs
    show after.jobs.has name = false
    rw [Table.has, hjobs]
    rfl
  former job hjob := by
    refine Fleet.retires_of_mem ?_
    show job.stop ∈ after.retired
    rw [hsame.retired]
    exact (h.former job hjob).retired
  nobody uuid := by
    show after.post? uuid ≠ some name
    obtain ⟨d, target, hget, ⟨-, a, -, rfl, hdefined⟩, hthere, -⟩ | ⟨-, hstays, -⟩ :=
      Fleet.lands_or_stays h.writable hobeyed uuid
    · -- the removed instance is not defined, so that nothing lands there
      rw [Fleet.post?, hthere, Option.bind_some]
      intro hname
      rw [Option.some.inj hname, h.definitions, Table.has_erase] at hdefined
      simp at hdefined
    · rw [Fleet.post?, hstays]
      exact h.devices.post?_ne (Option.some_ne_none name).symm uuid
  released uuid d hget hname := by
    have hmoved := h.devices.moved uuid d hget hname
    obtain ⟨other, hpicks, hthere, hrow⟩ := h.placed hobeyed hmoved rfl
    have hpost : s.fleet.post? uuid = some name := by rw [Fleet.post?, hget, Option.bind_some, hname]
    exact ⟨other, hpicks, hthere,
      hrow (h.devices.written (Option.some_ne_none name).symm uuid hpost)⟩
  free uuid d hget hfree := by
    have hpost : s.fleet.post? uuid ≠ some name := by
      rw [Fleet.post?, hget, Option.bind_some, hfree]
      exact (Option.some_ne_none name).symm
    obtain ⟨other, hpicks, hthere, -⟩ :=
      h.placed hobeyed ((h.devices.kept uuid hpost).trans hget) hfree
    exact ⟨other, hpicks, hthere⟩
  others uuid k hpost hk := by
    have hother : s.fleet.post? uuid ≠ some name := by
      rw [hpost]
      exact fun hname => hk (Option.some.inj hname)
    have hkept := h.devices.kept uuid hother
    obtain ⟨d, target, hget, ⟨hfree, -⟩, -, -⟩ | ⟨-, hsame, hrow⟩ :=
      Fleet.lands_or_stays h.writable hobeyed uuid
    · -- a device that works for an instance does not land
      rw [hkept] at hget
      rw [Fleet.post?, hget, Option.bind_some, hfree] at hpost
      cases hpost
    · exact ⟨hsame.trans hkept, hrow.trans (h.devices.unwritten uuid (.inr hother))⟩
  schedule := rfl

/-- The schedule, when it is told of released devices, has a startup pass made. -/
theorem tellReleased_of_schedule (h : s.listener = .schedule) :
    s.tellReleased = (s.startUp.1.map fun _ => (), s.startUp.2) := by
  rw [tellReleased, h]
  dsimp only
  cases s.startUp with
  | mk answer t =>
    cases answer with
    | error halt => rfl
    | ok placed => rfl

/-- The pass after a removal comes to an end when the clock shows a date. -/
theorem Without.releases_startUp (h : s.Without name g) (htoday : s.today? = some today) :
    ∃ placed t, ({ s with fleet := g } : Station).startUp = (.ok placed, t)
      ∧ s.Releases name today t := by
  have hstart : ({ s with fleet := g } : Station).startUp
      = ({ s with fleet := g } : Station).startUpAt today s.localSecond := by
    rw [startUp, show ({ s with fleet := g } : Station).today? = some today from htoday]
    rfl
  obtain ⟨⟨d, -, hhangs⟩, -⟩ | ⟨after, hplace, hobeyed⟩ :=
    g.placeAll_outcome (s.schedule.startupRules today s.localSecond)
  · have hends := hhangs.2
    rw [h.writable.ends] at hends
    cases hends
  · have hsame := (Fleet.stable_sameWork g).placeAll (.refl g)
      (s.schedule.startupRules today s.localSecond)
    rw [hplace] at hsame
    have hpass : ({ s with fleet := g } : Station).startUp
        = (.ok (g.placed (s.schedule.startupRules today s.localSecond)).length,
          { s with schedule := s.schedule.countPass, fleet := after }) := by
      rw [hstart, startUpAt_eq]
      dsimp only
      rw [hplace]
    exact ⟨_, _, hpass, h.releases hobeyed hsame⟩

/-- Removing an instance at a station whose schedule is told of released devices, while writes are
    carried out. A name that is neither defined nor live is refused, and nothing changes. Any other
    instance goes, its job is stopped, its devices are released, and one startup pass places the free
    devices; none is put back onto the instance. While the clock shows no date, no pass begins. -/
theorem removeInstance_releases (hlistener : s.listener = .schedule)
    (hwrites : s.fleet.storage.Writable) (name : String) :
    ((s.fleet.definitions.has name = false ∧ s.fleet.jobs.has name = false) →
        s.removeInstance name = (.error (.failed (.instanceNotFound name)), s))
      ∧ (s.fleet.definitions.has name = true ∨ s.fleet.jobs.has name = true →
        (∀ today, s.today? = some today →
            ∃ t, s.removeInstance name = (.ok (), t) ∧ s.Releases name today t)
          ∧ (s.today? = none → (s.removeInstance name).1 = .error .beyondCalendar)) := by
  constructor
  · rintro ⟨hdefined, hlive⟩
    rw [removeInstance, Fleet.removeInstance, hdefined, hlive]
    rfl
  · intro hknown
    obtain ⟨g, heq, hwithout⟩ := without_removeInstance hwrites hknown
    have hremove : s.removeInstance name
        = (({ s with fleet := g } : Station).startUp.1.map fun _ => (),
          ({ s with fleet := g } : Station).startUp.2) := by
      have htold := tellReleased_of_schedule (s := { s with fleet := g }) hlistener
      rw [← htold, removeInstance, heq]
      rfl
    refine ⟨fun today htoday => ?_, fun hnone => ?_⟩
    · obtain ⟨placed, t, hstart, hreleases⟩ := hwithout.releases_startUp htoday
      rw [hremove, hstart]
      exact ⟨t, rfl, hreleases⟩
    · rw [hremove, startUp, show ({ s with fleet := g } : Station).today? = none from hnone]
      rfl

/-- Two circles with one device each. One rule calls the first device to its own circle, and a later
    one to the other. -/
def calledAway : Station where
  fleet := .startedCircles
  schedule := { rules :=
    [{ id := 1, target := "A", device := some "dev-1" },
      { id := 2, target := "B", device := some "dev-1", time := 600 }] }
  now := .ofSeconds 3600

theorem removeInstance_releases_calledAway :
    calledAway.listener = .schedule ∧ calledAway.fleet.storage.Writable
      ∧ calledAway.fleet.definitions.has "A" = true
      ∧ calledAway.today? = some ⟨0, by decide, by decide⟩
      ∧ ∃ t, calledAway.removeInstance "A" = (.ok (), t)
        ∧ calledAway.Releases "A" ⟨0, by decide, by decide⟩ t := by
  have hwrites : calledAway.fleet.storage.Writable := ⟨fun _ => rfl, rfl⟩
  have hdefined : calledAway.fleet.definitions.has "A" = true := by decide +kernel
  have htoday : calledAway.today? = some ⟨0, by decide, by decide⟩ := by decide +kernel
  exact ⟨rfl, hwrites, hdefined, htoday,
    ((removeInstance_releases rfl hwrites "A").2 (.inl hdefined)).1 _ htoday⟩

/-- The device goes to the other circle. Before the second rule is due it stays free, though the first
    rule calls it back to where it was. -/
example : (calledAway.removeInstance "A").2.fleet.post? "dev-1" = some "B"
    ∧ ({ calledAway with now := .ofSeconds 0 }.removeInstance "A").2.fleet.post? "dev-1" = none := by
  decide +kernel

end Station

end ScanFleet
