import ScanFleet.Proofs.Station.Grounding
import ScanFleet.Proofs.Station.SideBySide
import ScanFleet.Proofs.Table

set_option autoImplicit false

/-! # Defined instances while chores go on side by side

Whether the target of a move is defined is asked before the device sets out, and not again. If the
definition goes in between, the device comes to work for an instance that is not defined
(`Bustle.Strays`); nothing else takes a device there. A device that storage names an undefined instance
for is registered with it for a moment, until it sets out, which the chore that registered it is about
to do next. -/

namespace ScanFleet

namespace Bustle

variable {b : Bustle} {k : Nat} {uuid : String}

/-- A chore lets the device set out next. -/
def Expects (b : Bustle) (uuid : String) : Prop :=
  ∃ chore ∈ b.chores, ∃ target rest, chore.deeds = .setOut ⟨uuid, target⟩ :: rest

/-- Every device that works for an instance works for a defined one, or sets out next. -/
def Grounded (b : Bustle) : Prop :=
  ∀ uuid name, b.station.fleet.post? uuid = some name →
    b.station.fleet.definitions.has name = true ∨ b.Expects uuid

/-- A device sets out for an instance that is no longer defined, or is there already. -/
def Strays (b : Bustle) : Happening → Prop
  | .turn k => ∃ m rest moved, b.chores[k]? = some ⟨.setOut m :: rest, moved⟩
    ∧ b.station.fleet.devices.has m.uuid = true
    ∧ b.station.fleet.definitions.has m.target = false ∧ ¬ (b.turn k).Expects m.uuid
  | _ => False

theorem grounded_iff_of_atRest (h : b.AtRest) : b.Grounded ↔ b.station.fleet.Grounded := by
  have hnone : ∀ uuid, ¬ b.Expects uuid := by
    rintro uuid ⟨chore, hmem, target, rest, hdeeds⟩
    rw [h chore hmem] at hdeeds
    cases hdeeds
  unfold Grounded Fleet.Grounded
  simp only [hnone, or_false]

theorem Expects.begin (h : b.Expects uuid) (deed : Deed) : (b.begin deed).Expects uuid := by
  obtain ⟨chore, hmem, hdeeds⟩ := h
  exact ⟨chore, List.mem_append_left _ hmem, hdeeds⟩

/-- The deed of one chore changes nothing about what the others do next. -/
theorem Expects.turn {deed : Deed} {rest : List Deed} {moved : Nat} {upshot : Upshot}
    (h : b.Expects uuid) (hchore : b.chores[k]? = some ⟨deed :: rest, moved⟩)
    (hperform : deed.perform b.station = some upshot) (hdeed : ∀ target, deed ≠ .setOut ⟨uuid, target⟩) :
    (b.turn k).Expects uuid := by
  obtain ⟨chore, hmem, target, left, hdeeds⟩ := h
  rw [turn_eq hchore hperform]
  refine ⟨chore, mem_set_of_ne hchore hmem ?_ _, target, left, hdeeds⟩
  rintro rfl
  exact hdeed target (List.cons.inj hdeeds).1

/-! ## Deeds -/

/-- Devices work on where they did, and no definition goes. -/
theorem Grounded.of_post? {c : Bustle} (h : b.Grounded)
    (hpost : ∀ uuid, c.station.fleet.post? uuid = b.station.fleet.post? uuid)
    (hdefinitions : ∀ name, b.station.fleet.definitions.has name = true →
      c.station.fleet.definitions.has name = true)
    (hexpects : ∀ uuid, b.Expects uuid → c.Expects uuid) : c.Grounded := by
  intro uuid name hname
  rw [hpost] at hname
  exact (h uuid name hname).imp (hdefinitions name) (hexpects uuid)

/-- The definition that goes is that of an instance whose devices go elsewhere. -/
theorem Grounded.of_withdraw {c : Bustle} (h : b.Grounded) (name : String) (other : Option String)
    (hdefinitions : ∀ k, k ≠ name → b.station.fleet.definitions.has k = true →
      c.station.fleet.definitions.has k = true)
    (hother : ∀ k, other = some k → c.station.fleet.definitions.has k = true)
    (hexpects : ∀ uuid, b.Expects uuid → c.Expects uuid)
    (hpost : ∀ uuid, c.station.fleet.post? uuid = (b.station.fleet.withdraw name other).post? uuid) :
    c.Grounded := by
  intro uuid k hname
  rw [hpost, Fleet.post?_withdraw] at hname
  split at hname
  · exact .inl (hother k hname)
  · rename_i hstays
    have hne : k ≠ name := by
      rintro rfl
      exact hstays hname
    exact (h uuid k hname).imp (hdefinitions k hne) (hexpects uuid)

variable {rest : List Deed} {moved : Nat} {upshot : Upshot}

/-- The chore that registers a device lets it set out next. -/
theorem Grounded.enlist {row : Device} {target : String} (h : b.Grounded)
    (hchore : b.chores[k]? = some ⟨.enlist row target :: rest, moved⟩) : (b.turn k).Grounded := by
  have hperform : Deed.perform b.station (.enlist row target) = some _ := rfl
  have heq := turn_eq hchore hperform
  intro uuid name hname
  by_cases huuid : row.uuid = uuid
  · subst huuid
    rw [heq]
    exact .inr ⟨_, self_mem_set hchore _, target, rest, rfl⟩
  · have hsame : (b.turn k).station.fleet.post? uuid = b.station.fleet.post? uuid := by
      rw [heq]
      dsimp only
      split
      · rfl
      · rw [Fleet.post?_insert, if_neg huuid]
    have hdefinitions : (b.turn k).station.fleet.definitions = b.station.fleet.definitions := by
      rw [heq]
    rw [hsame] at hname
    rw [hdefinitions]
    exact (h uuid name hname).imp id fun hset => hset.turn hchore hperform fun _ => Deed.noConfusion

theorem exists_setOut (s : Station) (m : Move) :
    ∃ upshot, Deed.perform s (.setOut m) = some upshot := by
  simp only [Deed.perform]
  split
  · exact ⟨_, rfl⟩
  · split
    · exact ⟨_, rfl⟩
    · exact ⟨_, rfl⟩

/-- Where the devices work after one has set out, if the fleet knows it. -/
theorem setOut_post? {s : Station} {m : Move} (h : Deed.perform s (.setOut m) = some upshot) :
    upshot.station.fleet.definitions = s.fleet.definitions
      ∧ upshot.station.fleet.post? m.uuid
        = (if s.fleet.devices.has m.uuid then some m.target else none)
      ∧ ∀ uuid, uuid ≠ m.uuid → upshot.station.fleet.post? uuid = s.fleet.post? uuid := by
  simp only [Deed.perform] at h
  split at h
  · rename_i hunknown
    obtain rfl := Option.some.inj h
    refine ⟨rfl, ?_, fun _ _ => rfl⟩
    rw [Table.has, Fleet.post?, hunknown]
    rfl
  · rename_i device hget
    have huuid : device.uuid = m.uuid := Table.key_of_get? hget
    rw [Table.has, hget, Option.isSome_some, if_pos rfl]
    split at h
    · rename_i hthere
      obtain rfl := Option.some.inj h
      refine ⟨rfl, ?_, fun _ _ => rfl⟩
      rw [Fleet.post?, hget, Option.bind_some]
      simpa [Device.worksFor] using hthere
    · obtain rfl := Option.some.inj h
      have hpost := Fleet.post?_insert s.fleet (device.assign (some m.target))
      refine ⟨rfl, (hpost m.uuid).trans (if_pos huuid), fun uuid hne => ?_⟩
      exact (hpost uuid).trans (if_neg fun hsame => hne (hsame.symm.trans huuid))

/-- A device that sets out works for a defined instance exactly when it does not stray. -/
theorem grounded_setOut_iff {m : Move} (h : b.Grounded)
    (hchore : b.chores[k]? = some ⟨.setOut m :: rest, moved⟩)
    (hperform : Deed.perform b.station (.setOut m) = some upshot) :
    (b.turn k).Grounded ↔ ¬ b.Strays (.turn k) := by
  have hstation : (b.turn k).station = upshot.station := by rw [turn_eq hchore hperform]
  obtain ⟨hdefinitions, hpost, hothers⟩ := setOut_post? hperform
  constructor
  · rintro hafter ⟨n, left, ended, hturn, hknown, hundefined, hleft⟩
    obtain ⟨⟨rfl, rfl⟩, rfl⟩ : (m = n ∧ rest = left) ∧ moved = ended := by
      simpa using hchore.symm.trans hturn
    have hlanded := hafter m.uuid m.target (by rw [hstation, hpost, if_pos hknown])
    rw [hstation, hdefinitions, hundefined] at hlanded
    exact hlanded.elim nofun hleft
  · intro hnot uuid name hname
    rw [hstation] at hname ⊢
    rw [hdefinitions]
    by_cases huuid : uuid = m.uuid
    · subst huuid
      rw [hpost] at hname
      split at hname
      · rename_i hknown
        obtain rfl := Option.some.inj hname
        by_contra hneither
        obtain ⟨hundefined, hleft⟩ := not_or.1 hneither
        exact hnot ⟨m, rest, moved, hchore, hknown, by simpa using hundefined, hleft⟩
      · cases hname
    · rw [hothers uuid huuid] at hname
      refine (h uuid name hname).imp id fun hset => hset.turn hchore hperform fun target heq => huuid ?_
      rw [Deed.setOut.inj heq]

/-- Every deed but that of setting out keeps devices on defined instances. -/
theorem Grounded.turn {deed : Deed} (h : b.Grounded)
    (hchore : b.chores[k]? = some ⟨deed :: rest, moved⟩)
    (hperform : deed.perform b.station = some upshot) (hdeed : ∀ m, deed ≠ .setOut m) :
    (b.turn k).Grounded := by
  have hstation : (b.turn k).station = upshot.station := by rw [turn_eq hchore hperform]
  have hexpects (uuid : String) (hset : b.Expects uuid) : (b.turn k).Expects uuid :=
    hset.turn hchore hperform fun target => hdeed ⟨uuid, target⟩
  cases Deed.outcome_of_perform hperform with
  | spares hspares =>
    refine h.of_post? (fun uuid => ?_) (fun name hname => ?_) hexpects
    · rw [hstation, Fleet.post?, hspares.devices]
      rfl
    · rw [hstation]
      exact hspares.definitions name hname
  | enlists => exact h.enlist hchore
  | setsOut => exact absurd rfl (hdeed _)
  | writes =>
    exact h.of_post? (fun uuid => by rw [hstation]; rfl) (fun name hname => by rwa [hstation]) hexpects
  | @replaces definition old =>
    refine h.of_withdraw old (some definition.name) (fun name hne hname => ?_) (fun name hname => ?_)
      hexpects (fun uuid => by rw [hstation]; rfl)
    · rw [hstation]
      show ((b.station.fleet.definitions.erase old).insert definition).has name = true
      rw [Table.has_insert, Table.has_erase, hname, decide_eq_true (Ne.symm hne), Bool.and_true,
        Bool.or_true]
    · obtain rfl := Option.some.inj hname
      rw [hstation]
      exact Table.has_insert_self _ definition
  | @removes name =>
    refine h.of_withdraw name none (fun other hne hother => ?_)
      (fun _ hname => absurd hname (Option.some_ne_none _).symm) hexpects
      (fun uuid => by rw [hstation]; rfl)
    have hkept : (b.station.fleet.withdraw name none).definitions.has other = true :=
      Fleet.has_withdraw_of_ne hother hne
    rw [hstation]
    exact hkept
  | @drops other =>
    intro uuid name hname
    rw [hstation] at hname ⊢
    replace hname := (Fleet.post?_erase _ other uuid).symm.trans hname
    split at hname
    · cases hname
    · exact (h uuid name hname).imp id (hexpects uuid)
  | @locates other place former seen hformer huuid hname =>
    refine h.of_post? (fun uuid => ?_) (fun name hdefined => by rwa [hstation]) hexpects
    rw [hstation]
    refine (Fleet.post?_insert b.station.fleet seen uuid).trans ?_
    split
    · rename_i hsame
      obtain rfl : other = uuid := huuid.symm.trans hsame
      rw [Fleet.post?, hformer, Option.bind_some, hname]
    · rfl

theorem grounded_turn_iff (h : b.Grounded) (k : Nat) :
    (b.turn k).Grounded ↔ ¬ b.Strays (.turn k) := by
  by_cases hsets : ∃ m rest moved, b.chores[k]? = some ⟨.setOut m :: rest, moved⟩
  · obtain ⟨m, rest, moved, hchore⟩ := hsets
    obtain ⟨upshot, hperform⟩ := exists_setOut b.station m
    exact grounded_setOut_iff h hchore hperform
  · refine iff_of_true ?_ fun ⟨m, rest, moved, hchore, _⟩ => hsets ⟨m, rest, moved, hchore⟩
    obtain heq | ⟨deed, rest, moved, upshot, hchore, hperform, -⟩ := b.turn_cases k
    · rwa [heq]
    · refine h.turn hchore hperform fun m hm => hsets ⟨m, rest, moved, ?_⟩
      rw [hchore, hm]

/-! ## Runs -/

theorem grounded_undergo_iff (h : b.Grounded) (happening : Happening) :
    (b.undergo happening).Grounded ↔ ¬ b.Strays happening := by
  cases happening with
  | turn k => exact grounded_turn_iff h k
  | tell instruction =>
    exact iff_of_true (h.of_post? (fun _ => rfl) (fun _ => id) fun _ hset => hset.begin _) id
  | tick today second =>
    obtain ⟨schedule, metrics, heq⟩ := b.tick_eq today second
    refine iff_of_true ?_ id
    show (b.tick today second).Grounded
    rw [heq]
    exact h.of_post? (fun _ => rfl) (fun _ => id) fun _ ⟨chore, hmem, hdeeds⟩ =>
      ⟨chore, List.mem_append_left _ hmem, hdeeds⟩
  | meanwhile now localOffset listener schedule =>
    exact iff_of_true (h.of_post? (fun _ => rfl) (fun _ => id) fun _ => id) id
  | restock tables down lookups =>
    exact iff_of_true (h.of_post? (fun _ => rfl) (fun _ => id) fun _ => id) id

end Bustle

/-! ## When a definition goes -/

namespace Deed

/-- The instance whose definition goes. -/
def undefines? : Deed → Option String
  | remove name => some name
  | replace definition old => if definition.name = old then none else some old
  | _ => none

variable {s : Station} {deed : Deed} {upshot : Upshot}

theorem aim?_of_mem_writes {rows : List Device} (h : deed ∈ rows.map .write) : deed.aim? = none := by
  obtain ⟨row, -, rfl⟩ := List.mem_map.1 h
  rfl

/-- A definition stays if no deed takes it away. -/
theorem defined_of_perform (hperform : deed.perform s = some upshot) {name : String}
    (hdefined : s.fleet.definitions.has name = true) (hstays : deed.undefines? ≠ some name) :
    upshot.station.fleet.definitions.has name = true := by
  cases outcome_of_perform hperform with
  | spares hspares => exact hspares.definitions name hdefined
  | @replaces definition old =>
    show ((s.fleet.definitions.erase old).insert definition).has name = true
    rw [Table.has_insert, Table.has_erase, hdefined, Bool.and_true, Bool.or_eq_true, decide_eq_true_eq,
      decide_eq_true_eq]
    by_cases hkept : definition.name = name
    · exact .inl hkept
    · refine .inr fun hsame => hstays ?_
      subst hsame
      exact if_neg hkept
  | @removes other =>
    have hne : name ≠ other := by
      rintro rfl
      exact hstays rfl
    have hkept : (s.fleet.withdraw other none).definitions.has name = true :=
      Fleet.has_withdraw_of_ne hdefined hne
    exact hkept
  | _ => exact hdefined

/-- Whoever is on the way to an instance has asked for it. -/
theorem defined_of_mem_next (hperform : deed.perform s = some upshot) {other : Deed}
    (hmem : other ∈ upshot.next) {name : String} (haim : other.aim? = some name) :
    upshot.station.fleet.definitions.has name = true ∨ deed.aim? = some name := by
  -- what the deeds that change something leave to do takes no device on its way, with one exception
  have hnot (hnone : other.aim? = none) : False := by
    rw [hnone] at haim
    cases haim
  cases outcome_of_perform hperform with
  | spares hspares =>
    obtain hplain | ⟨k, hk, hasked⟩ := hspares.next other hmem
    · exact (hnot (aim?_of_isPlain hplain)).elim
    · obtain rfl := Option.some.inj (hk.symm.trans haim)
      exact hasked.symm.imp (hspares.definitions k) id
  | enlists =>
    obtain rfl := List.mem_singleton.1 hmem
    exact .inr haim
  | setsOut =>
    rcases List.mem_append.1 hmem with hmem | hmem
    · obtain ⟨name, rfl⟩ := exists_leave_of_mem_leaving hmem
      exact (hnot rfl).elim
    · simp only [List.mem_cons, List.not_mem_nil, or_false] at hmem
      obtain rfl | rfl := hmem
      · exact (hnot rfl).elim
      · exact (hnot rfl).elim
  | writes => cases hmem
  | replaces =>
    rcases List.mem_append.1 hmem with hmem | hmem
    · exact (hnot (aim?_of_mem_writes hmem)).elim
    · obtain rfl := List.mem_singleton.1 hmem
      exact (hnot rfl).elim
  | removes =>
    rcases List.mem_append.1 hmem with hmem | hmem
    · exact (hnot (aim?_of_mem_writes hmem)).elim
    · simp only [List.mem_cons, List.not_mem_nil, or_false] at hmem
      obtain rfl | rfl := hmem
      · exact (hnot rfl).elim
      · exact (hnot rfl).elim
  | drops =>
    rcases List.mem_append.1 hmem with hmem | hmem
    · obtain ⟨name, rfl⟩ := exists_leave_of_mem_leaving hmem
      exact (hnot rfl).elim
    · obtain rfl := List.mem_singleton.1 hmem
      exact (hnot rfl).elim
  | locates => cases hmem

theorem aim?_opening (instruction : Instruction) : instruction.opening.aim? = none := by
  cases instruction with
  | _ => rfl

end Deed

namespace Bustle

/-- An instance loses its definition while a device is on its way there. -/
def Pulls (b : Bustle) : Happening → Prop
  | .turn k => ∃ deed rest moved name, b.chores[k]? = some ⟨deed :: rest, moved⟩
    ∧ deed.undefines? = some name ∧ ∃ chore ∈ b.chores, ∃ other ∈ chore.deeds, other.aim? = some name
  | _ => False

/-- Every device that is on its way goes to a defined instance. -/
def Aimed (b : Bustle) : Prop :=
  ∀ chore ∈ b.chores, ∀ deed ∈ chore.deeds, ∀ name, deed.aim? = some name →
    b.station.fleet.definitions.has name = true

variable {b : Bustle}

theorem Aimed.not_strays (h : b.Aimed) (happening : Happening) : ¬ b.Strays happening := by
  cases happening with
  | turn k =>
    rintro ⟨m, rest, moved, hchore, -, hundefined, -⟩
    have hdefined := h _ (List.mem_of_getElem? hchore) (.setOut m) List.mem_cons_self m.target rfl
    rw [hundefined] at hdefined
    cases hdefined
  | _ => exact id

theorem Aimed.turn {k : Nat} (h : b.Aimed) (hnot : ¬ b.Pulls (.turn k)) : (b.turn k).Aimed := by
  obtain heq | ⟨deed, rest, moved, upshot, hchore, hperform, heq⟩ := b.turn_cases k
  · rwa [heq]
  -- what is defined, and where somebody is on the way to, stays defined
  have hstays {chore : Chore} (hmem : chore ∈ b.chores) {other : Deed} (hdeed : other ∈ chore.deeds)
      {name : String} (haim : other.aim? = some name) :
      upshot.station.fleet.definitions.has name = true :=
    Deed.defined_of_perform hperform (h chore hmem other hdeed name haim) fun hundefines =>
      hnot ⟨deed, rest, moved, name, hchore, hundefines, chore, hmem, other, hdeed, haim⟩
  have hself : (⟨deed :: rest, moved⟩ : Chore) ∈ b.chores := List.mem_of_getElem? hchore
  rw [heq]
  intro chore hmem other hother name haim
  rcases List.mem_or_eq_of_mem_set hmem with hold | rfl
  · exact hstays hold hother haim
  · rcases List.mem_append.1 hother with hnext | hrest
    · obtain hdefined | hasked := Deed.defined_of_mem_next hperform hnext haim
      · exact hdefined
      · exact hstays hself List.mem_cons_self hasked
    · exact hstays hself (List.mem_cons_of_mem deed hrest) haim

theorem Aimed.undergo (h : b.Aimed) {happening : Happening} (hnot : ¬ b.Pulls happening) :
    (b.undergo happening).Aimed := by
  cases happening with
  | turn k => exact h.turn hnot
  | tell instruction =>
    intro chore hmem deed hdeed name haim
    rcases List.mem_append.1 hmem with hold | hnew
    · exact h chore hold deed hdeed name haim
    · obtain rfl := List.mem_singleton.1 hnew
      obtain rfl := List.mem_singleton.1 hdeed
      rw [Deed.aim?_opening] at haim
      cases haim
  | tick today second =>
    obtain ⟨schedule, metrics, heq⟩ := b.tick_eq today second
    show (b.tick today second).Aimed
    rw [heq]
    intro chore hmem deed hdeed name haim
    rcases List.mem_append.1 hmem with hold | hnew
    · exact h chore hold deed hdeed name haim
    · obtain ⟨rule, -, rfl⟩ := List.mem_map.1 hnew
      obtain rfl := List.mem_singleton.1 hdeed
      cases haim
  | meanwhile now localOffset listener schedule => exact h
  | restock tables down lookups => exact h

/-- No device strays as long as no instance loses its definition while one is on its way there. -/
theorem never_strays_of_never_pulls {happenings : List Happening} (h : b.Aimed)
    (hnever : b.Never Pulls happenings) : b.Never Strays happenings :=
  never_of_never Bustle.Aimed (fun _ => True)
    (fun _ happening _ haimed hnot => ⟨haimed.undergo hnot, haimed.not_strays happening⟩) h
    (fun _ _ => trivial) hnever

/-! ## Runs -/

theorem grounded_of_station {s : Station} (h : s.fleet.Grounded) : (Bustle.mk s []).Grounded :=
  fun uuid name hname => .inl (h uuid name hname)

theorem aimed_of_station (s : Station) : (Bustle.mk s []).Aimed := nofun

/-- Through a run in which chores go on side by side, from a station whose devices work for defined
    instances, every device works for a defined instance or is about to set out, exactly when no device
    strays. None strays as long as no instance loses its definition while a device is on its way there.
    When all chores are done, every device works for a defined instance. -/
theorem grounded_states_iff (s : Station) (h : s.fleet.Grounded) (happenings : List Happening) :
    ((∀ t ∈ (Bustle.mk s []).states happenings, t.Grounded)
        ↔ (Bustle.mk s []).Never Strays happenings)
      ∧ ((Bustle.mk s []).Never Pulls happenings → (Bustle.mk s []).Never Strays happenings)
      ∧ ∀ t : Bustle, t.AtRest → (t.Grounded ↔ t.station.fleet.Grounded) :=
  ⟨states_iff_never Bustle.Grounded (fun _ => True)
      (fun _ happening _ hb => grounded_undergo_iff hb happening) (grounded_of_station h)
      fun _ _ => trivial,
    never_strays_of_never_pulls (aimed_of_station s), fun _ => grounded_iff_of_atRest⟩

/-- Two circles at work. At some time of the day the device of the first one is due on the second. -/
def rushHour : Station :=
  { Station.twoCircles.step .start with
    schedule := {
      rules := [{ id := 1, target := "B", device := some "dev-1", time := 100 }]
      watermark := some ⟨Station.epoch, 50⟩ } }

/-- The device is on its way to the second circle when that one is removed, and goes there all the
    same. -/
def removalMeanwhile : List Happening :=
  [.tick Station.epoch 150, .turn 0, .turn 0, .turn 0,
    .tell (.removeInstance "B"), .turn 1, .turn 1, .turn 1, .turn 1, .turn 1, .turn 1,
    .turn 0, .turn 0, .turn 0, .turn 0, .turn 0]

theorem grounded_rushHour :
    rushHour.fleet.Grounded
      ∧ ((∀ t ∈ (Bustle.mk rushHour []).states removalMeanwhile, t.Grounded)
        ↔ (Bustle.mk rushHour []).Never Strays removalMeanwhile)
      ∧ ((Bustle.mk rushHour []).Never Pulls removalMeanwhile
        → (Bustle.mk rushHour []).Never Strays removalMeanwhile)
      ∧ ∀ t : Bustle, t.AtRest → (t.Grounded ↔ t.station.fleet.Grounded) := by
  have hgrounded : rushHour.fleet.Grounded := by decide +kernel
  exact ⟨hgrounded, grounded_states_iff rushHour hgrounded removalMeanwhile⟩

/-- When all is done the device works for the circle that is gone. -/
theorem ungrounded_by_removal :
    rushHour.fleet.Grounded ∧ ∃ t ∈ (Bustle.mk rushHour []).states removalMeanwhile,
      t.AtRest ∧ t.station.fleet.post? "dev-1" = some "B"
        ∧ t.station.fleet.definitions.has "B" = false ∧ ¬ t.station.fleet.Grounded := by
  exact ⟨by decide +kernel, _, last_mem_states _ removalMeanwhile, by decide +kernel⟩

end Bustle

end ScanFleet
