import ScanFleet.Proofs.Fleet.Following

set_option autoImplicit false

/-! # Ticks, fine and coarse

A tick carries out the rules that it finds due in the order in which they are listed, whatever their
times. Two ticks in the place of one carry out the same rules: first those that come due by the first
tick, and then the others, each in the order of the list. So the two ways may part over a device when a
rule that comes due later is listed before one that comes due earlier, and both name it. They agree
on every device when no rule is. -/

namespace ScanFleet

/-! ## Rules in two parts -/

/-- A list in which no element that fails `p` stands before one that passes is its two parts. -/
theorem filter_append_filter_not {α : Type} {p : α → Bool} {l : List α}
    (h : l.Pairwise fun a b => p b = true → p a = true) :
    l.filter p ++ l.filter (fun a => !p a) = l := by
  induction l with
  | nil => rfl
  | cons a rest ih =>
    obtain ⟨hfirst, hrest⟩ := List.pairwise_cons.1 h
    have hparts := ih hrest
    cases hp : p a with
    | true => rw [List.filter_cons_of_pos hp, List.filter_cons_of_neg (by simp [hp]), List.cons_append,
        hparts]
    | false =>
      -- nothing after `a` passes
      have hnone : rest.filter p = [] := by
        refine List.filter_eq_nil_iff.2 fun b hb hpb => ?_
        rw [hfirst b hb hpb] at hp
        cases hp
      rw [hnone, List.nil_append] at hparts
      rw [List.filter_cons_of_neg (by simp [hp]), hnone, List.filter_cons_of_pos (by simp [hp]), hparts,
        List.nil_append]

namespace Schedule

variable {s : Schedule} {today : Date} {since middle upTo : Nat}

/-- The rules that come due on a date between two seconds, in the order in which they are listed. -/
def dueWithin (s : Schedule) (today : Date) (since upTo : Nat) : List Assignment :=
  s.clockRules.filter fun a => fallsWithin a today since upTo

/-- A tick later on the date of the watermark. -/
theorem tick_of_le (hmark : s.watermark = some ⟨today, since⟩) (hle : since ≤ upTo) :
    s.tick today upTo
      = (s.dueWithin today since upTo, { s with watermark := some ⟨today, upTo⟩ }) := by
  rw [tick, hmark]
  dsimp only
  rw [if_pos hle]
  rfl

/-- The rule comes due by a second. -/
def dueBy (middle : Nat) (a : Assignment) : Bool := decide (a.time.toNat ≤ middle)

theorem dueWithin_early (hle : middle ≤ upTo) :
    s.dueWithin today since middle = (s.dueWithin today since upTo).filter (dueBy middle) := by
  unfold dueWithin
  rw [List.filter_filter]
  congr 1
  funext a
  rw [Bool.eq_iff_iff]
  simp only [fallsWithin, dueBy, Bool.and_eq_true, decide_eq_true_eq]
  constructor
  · rintro ⟨⟨hsince, hmiddle⟩, hholds⟩
    exact ⟨hmiddle, ⟨hsince, Nat.le_trans hmiddle hle⟩, hholds⟩
  · rintro ⟨hmiddle, ⟨hsince, -⟩, hholds⟩
    exact ⟨⟨hsince, hmiddle⟩, hholds⟩

theorem dueWithin_late (hle : since ≤ middle) :
    s.dueWithin today middle upTo
      = (s.dueWithin today since upTo).filter fun a => !dueBy middle a := by
  unfold dueWithin
  rw [List.filter_filter]
  congr 1
  funext a
  rw [Bool.eq_iff_iff]
  simp only [fallsWithin, dueBy, Bool.and_eq_true, Bool.not_eq_true', decide_eq_true_eq,
    decide_eq_false_iff_not, Nat.not_le]
  constructor
  · rintro ⟨⟨hmiddle, hupTo⟩, hholds⟩
    exact ⟨hmiddle, ⟨Nat.lt_of_le_of_lt hle hmiddle, hupTo⟩, hholds⟩
  · rintro ⟨hmiddle, ⟨-, hupTo⟩, hholds⟩
    exact ⟨⟨hmiddle, hupTo⟩, hholds⟩

/-- Two ticks fire the same rules as one. -/
theorem mem_dueWithin_append (hsince : since ≤ middle) (hupTo : middle ≤ upTo) (a : Assignment) :
    a ∈ s.dueWithin today since middle ++ s.dueWithin today middle upTo
      ↔ a ∈ s.dueWithin today since upTo := by
  rw [dueWithin_early hupTo, dueWithin_late hsince]
  exact (List.filter_append_perm _ _).mem_iff

end Schedule

/-! ## One device -/

namespace Fleet

variable {f g h : Fleet} {completed : Option String} {rules others : List Assignment}

/-- The rules that name a device lead it where all rules do. -/
theorem follow_filter_names (rules : List Assignment) (d : Device) :
    f.follow completed (rules.filter (f.names · d.uuid)) d = f.follow completed rules d := by
  induction rules generalizing d with
  | nil => rfl
  | cons a rest ih =>
    rw [List.filter_cons]
    cases hnames : f.names a d.uuid with
    | true =>
      -- the device goes on under the same uuid, wherever the first rule sends it
      have hrest := ih (if f.applies completed a d then d.assign (some a.target) else d)
      have huuid : (if f.applies completed a d then d.assign (some a.target) else d).uuid = d.uuid := by
        split
        · rfl
        · rfl
      rw [huuid] at hrest
      exact hrest
    | false =>
      have hidle : f.applies completed a d = false := by simp [applies, hnames]
      have hrest := ih d
      unfold follow at hrest ⊢
      rw [List.foldl_cons, hidle]
      exact hrest

/-- No rule that comes due after a second is listed before one that comes due by it, when both name the
    device. -/
def Sequenced (f : Fleet) (middle : Nat) (rules : List Assignment) (uuid : String) : Prop :=
  rules.Pairwise fun a b => f.names a uuid = true → f.names b uuid = true →
    Schedule.dueBy middle b = true → Schedule.dueBy middle a = true

/-- Rules in sequence lead a device to one place, whether or not the early ones are carried out
    first. -/
theorem follow_of_sequenced {middle : Nat} {d : Device} (hseq : f.Sequenced middle rules d.uuid) :
    f.follow completed (rules.filter (Schedule.dueBy middle)
      ++ rules.filter fun a => !Schedule.dueBy middle a) d = f.follow completed rules d := by
  have hnamed : (rules.filter (f.names · d.uuid)).Pairwise fun a b =>
      Schedule.dueBy middle b = true → Schedule.dueBy middle a = true :=
    List.pairwise_filter.2 hseq
  have hcomm : ∀ p : Assignment → Bool, (rules.filter p).filter (f.names · d.uuid)
      = (rules.filter (f.names · d.uuid)).filter p := by
    intro p
    rw [List.filter_filter, List.filter_filter]
    simp only [Bool.and_comm]
  rw [← follow_filter_names, List.filter_append, hcomm, hcomm, filter_append_filter_not hnamed,
    follow_filter_names]

theorem Followed.has_eq (hfg : f.Followed completed rules g) (hfh : f.Followed completed others h)
    (hsame : ∀ a, a ∈ rules ↔ a ∈ others) (uuid : String) :
    g.devices.has uuid = h.devices.has uuid := by
  rw [Bool.eq_iff_iff, hfg.has_iff, hfh.has_iff]
  simp only [Moves, hsame]

/-- Devices that followed the same rules in two orders work for the same instance exactly when both
    orders lead there. -/
theorem Followed.post?_eq_iff (hfg : f.Followed completed rules g)
    (hfh : f.Followed completed others h) (hsame : ∀ a, a ∈ rules ↔ a ∈ others) (uuid : String) :
    g.post? uuid = h.post? uuid ↔
      ∀ device, f.device? uuid = some device →
        (f.follow completed rules device).instanceName
          = (f.follow completed others device).instanceName := by
  have hmoves : ∀ device, f.Moves completed rules device ↔ f.Moves completed others device := by
    intro device
    simp only [Moves, hsame]
  unfold post?
  rcases hfg.get?_eq uuid with ⟨device, hdevice, hmoved, hget⟩ | ⟨hidle, hget⟩
  · rcases hfh.get?_eq uuid with ⟨other, hother, -, hget'⟩ | ⟨hidle, -⟩
    · rw [hdevice] at hother
      obtain rfl := Option.some.inj hother
      rw [hget, hget', Option.bind_some, Option.bind_some, hdevice]
      simp
    · exact absurd ⟨device, hdevice, (hmoves device).1 hmoved⟩ hidle
  · rcases hfh.get?_eq uuid with ⟨other, hother, hmoved, -⟩ | ⟨hidle', hget'⟩
    · exact absurd ⟨other, hother, (hmoves other).2 hmoved⟩ hidle
    · rw [hget, hget']
      refine iff_of_true rfl fun device hdevice => ?_
      rw [follow_of_not_moves fun hmoved => hidle ⟨device, hdevice, hmoved⟩,
        follow_of_not_moves fun hmoved => hidle' ⟨device, hdevice, hmoved⟩]

end Fleet

/-! ## Two ticks and one -/

namespace Station

/-- The station after ticks at seconds of a date, one after another. Nothing, when a rule of one of
    them does not come to an end. -/
def settled? (s : Station) (today : Date) : List Nat → Option Station
  | [] => some s
  | second :: rest =>
    if (s.tickAt today second).1.moved.isSome then (s.tickAt today second).2.settled? today rest
    else none

/-- A tick later on the date of the watermark comes to an end, and the devices follow the rules that are
    due. -/
theorem followed_tickAt {s : Station} {today : Date} {since upTo : Nat}
    (hmark : s.schedule.watermark = some ⟨today, since⟩) (hle : since ≤ upTo)
    (hstorage : s.fleet.storage.Responsive) (rest : List Nat) :
    ∃ t : Station, s.settled? today (upTo :: rest) = t.settled? today rest
      ∧ t.schedule = { s.schedule with watermark := some ⟨today, upTo⟩ }
      ∧ s.fleet.Followed none (s.schedule.dueWithin today since upTo) t.fleet := by
  obtain ⟨moved, hmoved, hfollowed⟩ :=
    Fleet.followed_fireDue hstorage (s.schedule.dueWithin today since upTo)
  have htick : s.tickAt today upTo
      = (⟨(s.schedule.dueWithin today since upTo).length, some moved⟩,
        { s with
          schedule := { s.schedule with watermark := some ⟨today, upTo⟩ }
          fleet := (s.fleet.fireDue (s.schedule.dueWithin today since upTo)).2 }) := by
    unfold tickAt
    rw [Schedule.tick_of_le hmark hle]
    dsimp only
    rw [hmoved]
  refine ⟨(s.tickAt today upTo).2, ?_, ?_, ?_⟩
  · rw [settled?, htick]
    rfl
  · rw [htick]
  · rw [htick]
    exact hfollowed

/-- A tick and a later one on the date of the watermark come to an end, as the later one alone does, and
    leave the same devices registered. A device ends up on the same instance exactly when the rules that
    are due by the first tick and then those that are due after it lead it there where the rules lead it
    in the order of the list. So it does when the rules that name it are in sequence. -/
theorem settled_fine_iff (s : Station) {today : Date} {since middle upTo : Nat}
    (hmark : s.schedule.watermark = some ⟨today, since⟩) (hmiddle : since < middle)
    (hupTo : middle < upTo) (hstorage : s.fleet.storage.Responsive) :
    ∃ fine coarse : Station, s.settled? today [middle, upTo] = some fine
      ∧ s.settled? today [upTo] = some coarse
      ∧ ∀ uuid, fine.fleet.devices.has uuid = coarse.fleet.devices.has uuid
        ∧ (fine.fleet.post? uuid = coarse.fleet.post? uuid ↔
            ∀ device, s.fleet.device? uuid = some device →
              (s.fleet.follow none (s.schedule.dueWithin today since middle
                ++ s.schedule.dueWithin today middle upTo) device).instanceName
              = (s.fleet.follow none (s.schedule.dueWithin today since upTo) device).instanceName)
        ∧ (s.fleet.Sequenced middle (s.schedule.dueWithin today since upTo) uuid →
            fine.fleet.post? uuid = coarse.fleet.post? uuid) := by
  obtain ⟨first, hfirst, hschedule, hearly⟩ :=
    followed_tickAt hmark (Nat.le_of_lt hmiddle) hstorage [upTo]
  have hmark' : first.schedule.watermark = some ⟨today, middle⟩ := by rw [hschedule]
  obtain ⟨fine, hfine, -, hlate⟩ :=
    followed_tickAt hmark' (Nat.le_of_lt hupTo) hearly.alike.responsive []
  obtain ⟨coarse, hcoarse, -, hdue⟩ :=
    followed_tickAt hmark (Nat.le_of_lt (Nat.lt_trans hmiddle hupTo)) hstorage []
  -- the rules stand as they did when the second tick comes
  have hrules : first.schedule.dueWithin today middle upTo = s.schedule.dueWithin today middle upTo := by
    rw [hschedule]
    rfl
  rw [hrules] at hlate
  have hboth := hearly.append hstorage hlate
  have hsame : ∀ a, a ∈ s.schedule.dueWithin today since middle
      ++ s.schedule.dueWithin today middle upTo ↔ a ∈ s.schedule.dueWithin today since upTo :=
    Schedule.mem_dueWithin_append (Nat.le_of_lt hmiddle) (Nat.le_of_lt hupTo)
  refine ⟨fine, coarse, hfirst.trans hfine, hcoarse, fun uuid => ?_⟩
  have hiff := hboth.post?_eq_iff hdue hsame uuid
  refine ⟨hboth.has_eq hdue hsame uuid, hiff, fun hseq => hiff.2 fun device hdevice => ?_⟩
  obtain rfl := Fleet.uuid_of_device? hdevice
  rw [Schedule.dueWithin_early (Nat.le_of_lt hupTo), Schedule.dueWithin_late (Nat.le_of_lt hmiddle),
    Fleet.follow_of_sequenced hseq]

/-- The day of the two rules below. -/
def dayOne : Date := ⟨1, by decide, by decide⟩

/-- A device and two rules that name it, the one that comes due later listed first. -/
def lateFirst : Station :=
  let s := ofTables (.ofSeed {
    instances := [⟨"Day", .circlePokemon, {}⟩, ⟨"Early", .circlePokemon, {}⟩,
      ⟨"Late", .circlePokemon, {}⟩]
    devices := [{ uuid := "dev-1", instanceName := some "Day" }] }) {}
  { s with
    fleet := (s.fleet.start s.now).2
    schedule := {
      rules := [{ id := 1, target := "Late", device := some "dev-1", time := 200 },
        { id := 2, target := "Early", device := some "dev-1", time := 100 }]
      watermark := some ⟨dayOne, 50⟩ } }

theorem responsive_lateFirst : lateFirst.fleet.storage.Responsive :=
  ⟨fun _ => rfl, fun _ => rfl, fun _ => rfl, by decide +kernel⟩

theorem settled_lateFirst_iff :
    (lateFirst.schedule.watermark = some ⟨dayOne, 50⟩ ∧ 50 < 150 ∧ 150 < 250
        ∧ lateFirst.fleet.storage.Responsive)
      ∧ ∃ fine coarse : Station, lateFirst.settled? dayOne [150, 250] = some fine
        ∧ lateFirst.settled? dayOne [250] = some coarse
        ∧ ∀ uuid, fine.fleet.devices.has uuid = coarse.fleet.devices.has uuid
          ∧ (fine.fleet.post? uuid = coarse.fleet.post? uuid ↔
              ∀ device, lateFirst.fleet.device? uuid = some device →
                (lateFirst.fleet.follow none (lateFirst.schedule.dueWithin dayOne 50 150
                  ++ lateFirst.schedule.dueWithin dayOne 150 250) device).instanceName
                = (lateFirst.fleet.follow none (lateFirst.schedule.dueWithin dayOne 50 250)
                    device).instanceName)
          ∧ (lateFirst.fleet.Sequenced 150 (lateFirst.schedule.dueWithin dayOne 50 250) uuid →
              fine.fleet.post? uuid = coarse.fleet.post? uuid) := by
  have hmark : lateFirst.schedule.watermark = some ⟨dayOne, 50⟩ := rfl
  have hmiddle : 50 < 150 := by decide
  have hupTo : 150 < 250 := by decide
  exact ⟨⟨hmark, hmiddle, hupTo, responsive_lateFirst⟩,
    settled_fine_iff lateFirst hmark hmiddle hupTo responsive_lateFirst⟩

/-- A tick between the two times leaves the device on another instance than no tick there. -/
theorem parted_lateFirst :
    lateFirst.schedule.watermark = some ⟨dayOne, 50⟩ ∧ 50 < 150 ∧ 150 < 250 ∧ 250 < secondsPerDay
      ∧ lateFirst.fleet.storage.Responsive
      ∧ (∀ uuid : String, lateFirst.fleet.storage.isDown (.updateDevice uuid) = false)
      ∧ ¬ ∃ fine coarse : Station, lateFirst.settled? dayOne [150, 250] = some fine
        ∧ lateFirst.settled? dayOne [250] = some coarse
        ∧ ∀ uuid, fine.fleet.post? uuid = coarse.fleet.post? uuid := by
  refine ⟨rfl, by decide, by decide, by decide, responsive_lateFirst, fun _ => rfl, ?_⟩
  rintro ⟨fine, coarse, hfine, hcoarse, hall⟩
  have hlate : (lateFirst.settled? dayOne [150, 250]).bind (·.fleet.post? "dev-1") = some "Late" := by
    decide +kernel
  have hearly : (lateFirst.settled? dayOne [250]).bind (·.fleet.post? "dev-1") = some "Early" := by
    decide +kernel
  rw [hfine, Option.bind_some, hall "dev-1"] at hlate
  rw [hcoarse, Option.bind_some, hlate] at hearly
  exact absurd hearly (by decide)

end Station

end ScanFleet
