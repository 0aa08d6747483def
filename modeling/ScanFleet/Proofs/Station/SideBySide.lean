import ScanFleet.Proofs.Fleet.Instances
import ScanFleet.Proofs.Fleet.Triggers
import ScanFleet.Station.Chores

set_option autoImplicit false

/-! # Deeds among others

What holds in every state of a bustle has to be kept by every deed of every chore, whatever else goes on.
Most deeds only look around, change jobs or count, and leave devices, rows and definitions as they are
(`Deed.Spares`). The others are few, and what comes of any deed is told by `Deed.Outcome`, from which the
proofs to come are read. A property that is kept by all happenings but those that lapse holds all along
exactly when none does (`Bustle.states_iff_never`). -/

namespace ScanFleet

namespace Bustle

variable {b : Bustle} {k : Nat}

/-! ## Turns -/

theorem turn_eq {deed : Deed} {rest : List Deed} {moved : Nat} {upshot : Upshot}
    (hchore : b.chores[k]? = some ⟨deed :: rest, moved⟩) (h : deed.perform b.station = some upshot) :
    b.turn k = ⟨upshot.station, b.chores.set k ⟨upshot.next ++ rest, moved + upshot.moved⟩⟩ := by
  simp only [turn, hchore, h]

/-- A turn does a deed, or nothing. -/
theorem turn_cases (b : Bustle) (k : Nat) :
    b.turn k = b ∨ ∃ deed rest moved upshot, b.chores[k]? = some ⟨deed :: rest, moved⟩
      ∧ deed.perform b.station = some upshot
      ∧ b.turn k = ⟨upshot.station, b.chores.set k ⟨upshot.next ++ rest, moved + upshot.moved⟩⟩ := by
  cases hchore : b.chores[k]? with
  | none => exact .inl (by simp only [turn, hchore])
  | some chore =>
    obtain ⟨deeds, moved⟩ := chore
    cases deeds with
    | nil => exact .inl (by simp only [turn, hchore])
    | cons deed rest =>
      cases hperform : deed.perform b.station with
      | none => exact .inl (by simp only [turn, hchore, hperform])
      | some upshot => exact .inr ⟨deed, rest, moved, upshot, rfl, hperform, turn_eq hchore hperform⟩

/-- The chore whose turn it was. -/
theorem self_mem_set {chores : List Chore} {old : Chore} (h : chores[k]? = some old) (chore : Chore) :
    chore ∈ chores.set k chore := by
  obtain ⟨hlt, -⟩ := List.getElem?_eq_some_iff.1 h
  exact List.mem_set hlt chore

/-- A chore whose turn it was not. -/
theorem mem_set_of_ne {chores : List Chore} {old chore : Chore} (h : chores[k]? = some old)
    (hmem : chore ∈ chores) (hne : chore ≠ old) (new : Chore) : chore ∈ chores.set k new := by
  obtain ⟨i, hi⟩ := List.getElem?_of_mem hmem
  have hother : k ≠ i := by
    rintro rfl
    exact hne (Option.some.inj (hi.symm.trans h))
  exact List.mem_of_getElem? ((List.getElem?_set_ne hother).trans hi)

/-- What is in the list with one chore put at a place is there with any other at that place. -/
theorem mem_set_of_mem_set {chores : List Chore} {new chore : Chore} (h : chore ∈ chores.set k new)
    (hne : chore ≠ new) (other : Chore) : chore ∈ chores.set k other := by
  obtain ⟨i, hi⟩ := List.getElem?_of_mem h
  by_cases hsame : k = i
  · subst hsame
    obtain ⟨hlt, heq⟩ := List.getElem?_eq_some_iff.1 hi
    exact absurd (heq.symm.trans (List.getElem_set_self hlt)) hne
  · rw [List.getElem?_set_ne hsame] at hi
    exact List.mem_of_getElem? ((List.getElem?_set_ne hsame).trans hi)

/-- A tick changes the schedule, counts, and adds a chore for each rule that is due. -/
theorem tick_eq (b : Bustle) (today : Date) (second : Nat) :
    ∃ schedule metrics, b.tick today second
      = ⟨{ b.station with schedule, fleet := { b.station.fleet with metrics } },
        b.chores ++ (b.station.schedule.tick today second).1.map fun rule =>
          { deeds := [.resolve { rule }] }⟩ := by
  obtain ⟨metrics, hcounted⟩ :=
    b.station.fleet.foldl_countTrigger (b.station.schedule.tick today second).1
  refine ⟨(b.station.schedule.tick today second).2, metrics, ?_⟩
  unfold tick
  dsimp only
  rw [hcounted]

/-! ## Runs -/

/-- No happening of a run is a lapse in the state that it meets. -/
def Never (lapses : Bustle → Happening → Prop) (b : Bustle) : List Happening → Prop
  | [] => True
  | happening :: rest => ¬ lapses b happening ∧ (b.undergo happening).Never lapses rest

theorem self_mem_states (b : Bustle) (happenings : List Happening) : b ∈ b.states happenings := by
  cases happenings with
  | nil => exact List.mem_singleton_self b
  | cons happening rest => exact List.mem_cons_self

theorem last_mem_states (b : Bustle) (happenings : List Happening) :
    happenings.foldl undergo b ∈ b.states happenings := by
  induction happenings generalizing b with
  | nil => exact List.mem_singleton_self b
  | cons happening rest ih => exact List.mem_cons_of_mem b (ih (b.undergo happening))

theorem spells_eq_turns (b : Bustle) (spell : Nat) (ks : List Nat) :
    b.spells spell ks = b.turns (ks.flatMap (.replicate spell)) := by
  unfold spells turns
  rw [List.foldl_flatMap]

/-- What is done in rounds is done in turns, so that the rounds of a tick are part of a run. -/
theorem exists_turns_rounds (b : Bustle) (spell n : Nat) :
    ∃ ks : List Nat, b.rounds spell n ∈ b.states (ks.map .turn) := by
  obtain ⟨ks, hturns⟩ : ∃ ks, b.rounds spell n = b.turns ks := by
    induction n generalizing b with
    | zero => exact ⟨[], rfl⟩
    | succ n ih =>
      unfold rounds
      split
      · exact ⟨[], rfl⟩
      · obtain ⟨ks, hrest⟩ := ih (b.spells spell (.range b.chores.length))
        rw [hrest, spells_eq_turns]
        exact ⟨_, List.foldl_append.symm⟩
  have hrun : b.turns ks = (ks.map .turn).foldl undergo b := by
    rw [List.foldl_map]
    rfl
  rw [hturns, hrun]
  exact ⟨ks, last_mem_states b _⟩

/-- What all happenings of a run keep holds all along. -/
theorem forall_states (P : Bustle → Prop) (allowed : Happening → Prop)
    (hstep : ∀ b happening, allowed happening → P b → P (b.undergo happening)) (hb : P b)
    {happenings : List Happening} (hallowed : ∀ h ∈ happenings, allowed h) :
    ∀ t ∈ b.states happenings, P t := by
  induction happenings generalizing b with
  | nil =>
    intro t ht
    obtain rfl := List.mem_singleton.1 ht
    exact hb
  | cons happening rest ih =>
    intro t ht
    rcases List.mem_cons.1 ht with rfl | ht
    · exact hb
    · exact ih (hstep b happening (hallowed happening List.mem_cons_self) hb)
        (fun h hmem => hallowed h (List.mem_cons_of_mem happening hmem)) t ht

/-- What is kept exactly by the happenings that do not lapse holds all along exactly when none does. -/
theorem states_iff_never (P : Bustle → Prop) (allowed : Happening → Prop)
    {lapses : Bustle → Happening → Prop}
    (hstep : ∀ b happening, allowed happening → P b →
      (P (b.undergo happening) ↔ ¬ lapses b happening))
    (hb : P b) {happenings : List Happening} (hallowed : ∀ h ∈ happenings, allowed h) :
    (∀ t ∈ b.states happenings, P t) ↔ b.Never lapses happenings := by
  induction happenings generalizing b with
  | nil => simpa [states, Never] using hb
  | cons happening rest ih =>
    have hkept := hstep b happening (hallowed happening List.mem_cons_self) hb
    have hrest : P (b.undergo happening) → _ :=
      fun hnext => ih hnext fun h hmem => hallowed h (List.mem_cons_of_mem happening hmem)
    unfold states Never
    constructor
    · intro hall
      have hstates : ∀ t ∈ (b.undergo happening).states rest, P t :=
        fun t ht => hall t (List.mem_cons_of_mem b ht)
      have hnext := hstates _ (self_mem_states _ rest)
      exact ⟨hkept.1 hnext, (hrest hnext).1 hstates⟩
    · rintro ⟨hnot, hnever⟩ t ht
      have hnext := hkept.2 hnot
      rcases List.mem_cons.1 ht with rfl | ht
      · exact hb
      · exact (hrest hnext).2 hnever t ht

/-- What is kept by all happenings of a run but those that are at fault holds where no fault happens, and
    keeps other lapses away. -/
theorem never_of_never (P : Bustle → Prop) (allowed : Happening → Prop)
    {lapses faults : Bustle → Happening → Prop}
    (hstep : ∀ b happening, allowed happening → P b → ¬ faults b happening →
      P (b.undergo happening) ∧ ¬ lapses b happening)
    (hb : P b) {happenings : List Happening} (hallowed : ∀ h ∈ happenings, allowed h)
    (hnever : b.Never faults happenings) : b.Never lapses happenings := by
  induction happenings generalizing b with
  | nil => trivial
  | cons happening rest ih =>
    obtain ⟨hnext, hnot⟩ := hstep b happening (hallowed happening List.mem_cons_self) hb hnever.1
    exact ⟨hnot, ih hnext (fun h hmem => hallowed h (List.mem_cons_of_mem happening hmem)) hnever.2⟩

end Bustle

/-- A device that checks in works on for its instance. -/
theorem Fleet.locate_cases (f : Fleet) (uuid : String) (place : Coordinate) (now : Instant) :
    (f.locate uuid place now).2 = f
      ∨ ∃ former seen, f.devices.get? uuid = some former ∧ seen.uuid = uuid
        ∧ seen.instanceName = former.instanceName
        ∧ (f.locate uuid place now).2 = { f with devices := f.devices.insert seen } := by
  unfold Fleet.locate
  split
  · exact .inl rfl
  · rename_i former hget
    let seen := { former with location := some place, lastSeen := some (.ofInt now.seconds) }
    exact .inr ⟨former, seen, hget, Table.key_of_get? hget, rfl, rfl⟩

/-! ## Deeds that spare devices, rows and definitions -/

namespace Deed

/-- The instance that a device is on its way to, past the question whether it is defined. -/
def aim? : Deed → Option String
  | search m => some m.target
  | fetch m => some m.target
  | enlist _ target => some target
  | setOut m => some m.target
  | _ => none

/-- The row of a device that the deed has in hand. -/
def row? : Deed → Option Device
  | write row | enlist row _ => some row
  | _ => none

/-- The deed takes no device on its way, and writes no row. -/
def isPlain : Deed → Bool
  | search _ | fetch _ | enlist _ _ | setOut _ | write _ => false
  | _ => true

variable {s : Station} {deed other : Deed} {upshot : Upshot}

theorem exists_leave_of_mem_leaving {name : Option String} {uuid : String}
    (h : deed ∈ leaving name uuid) : ∃ name, deed = .leave name uuid := by
  obtain ⟨name, -, rfl⟩ := List.mem_map.1 h
  exact ⟨name, rfl⟩

theorem aim?_of_isPlain (h : deed.isPlain = true) : deed.aim? = none := by
  cases deed with
  | search | fetch | enlist | setOut => cases h
  | _ => rfl

/-- A deed leaves the devices, what is stored and the definitions as they are, but may add a definition.
    No row is to be written because of it, a row that it takes in hand is stored, and no device goes on to
    an instance that was not asked for. -/
structure Spares (s : Station) (deed : Deed) (upshot : Upshot) : Prop where
  devices : upshot.station.fleet.devices = s.fleet.devices
  storage : upshot.station.fleet.storage = s.fleet.storage
  definitions : ∀ name, s.fleet.definitions.has name = true →
    upshot.station.fleet.definitions.has name = true
  next : ∀ other ∈ upshot.next, other.isPlain = true
    ∨ ∃ name, other.aim? = some name
      ∧ (deed.aim? = some name ∨ s.fleet.definitions.has name = true)
  stored : ∀ row target, .enlist row target ∈ upshot.next →
    s.fleet.storage.tables.devices.get? row.uuid = some row

theorem Spares.write_not_mem (h : Spares s deed upshot) (row : Device) : .write row ∉ upshot.next := by
  intro hmem
  obtain hplain | ⟨name, haim, -⟩ := h.next _ hmem
  · cases hplain
  · cases haim

theorem isPlain_of_mem_moves {firing : Firing} {devices : List Device} (h : deed ∈ firing.moves devices) :
    deed.isPlain = true := by
  obtain ⟨d, -, rfl⟩ := List.mem_map.1 h
  rfl

theorem isPlain_of_mem_goOn (firing : Firing) (known : List Device) (unknown left : List String) :
    ∀ deed ∈ firing.goOn known unknown left, deed.isPlain = true := by
  intro deed h
  unfold Firing.goOn at h
  split at h
  · obtain rfl := List.mem_singleton.1 h
    rfl
  · split at h
    · exact isPlain_of_mem_moves h
    · obtain rfl := List.mem_singleton.1 h
      rfl

theorem isPlain_of_mem_moving {trigger : Option Trigger} {moves : List Move}
    (h : deed ∈ moving trigger moves) : deed.isPlain = true := by
  obtain ⟨m, -, hmem⟩ := List.mem_flatMap.1 h
  rcases List.mem_append.1 hmem with hcount | hcheck
  · obtain ⟨trigger, -, rfl⟩ := List.mem_map.1 hcount
    rfl
  · obtain rfl := List.mem_singleton.1 hcheck
    rfl

theorem isPlain_of_mem_mustering {rules : List Assignment} {found : List (String × List String)}
    {left : List Assignment} (h : deed ∈ mustering rules found left) : deed.isPlain = true := by
  induction left with
  | nil =>
    obtain rfl := List.mem_singleton.1 h
    rfl
  | cons first left ih =>
    unfold mustering at h
    split at h
    · split at h
      · exact ih h
      · obtain rfl := List.mem_singleton.1 h
        rfl
    · exact ih h

/-- What is to be done next is plain. -/
theorem spares_of_plain (hdevices : upshot.station.fleet.devices = s.fleet.devices)
    (hstorage : upshot.station.fleet.storage = s.fleet.storage)
    (hdefinitions : upshot.station.fleet.definitions = s.fleet.definitions)
    (hnext : ∀ other ∈ upshot.next, other.isPlain = true) : Spares s deed upshot :=
  ⟨hdevices, hstorage, fun _ h => hdefinitions ▸ h, fun other hmem => .inl (hnext other hmem),
    fun _ _ hmem => absurd (hnext _ hmem) nofun⟩

/-- Nothing is to be done next. -/
theorem spares_of_end (hdevices : upshot.station.fleet.devices = s.fleet.devices)
    (hstorage : upshot.station.fleet.storage = s.fleet.storage)
    (hdefinitions : upshot.station.fleet.definitions = s.fleet.definitions)
    (hnext : upshot.next = []) : Spares s deed upshot := by
  refine spares_of_plain hdevices hstorage hdefinitions fun other hmem => ?_
  rw [hnext] at hmem
  cases hmem

/-- A deed that changes nothing, and takes a device further on its way at most. -/
theorem spares_of_aim {next : List Deed} {name : String}
    (haim : deed.aim? = some name ∨ s.fleet.definitions.has name = true)
    (hnext : ∀ other ∈ next, other.aim? = some name)
    (hstored : ∀ row target, .enlist row target ∈ next →
      s.fleet.storage.tables.devices.get? row.uuid = some row) : Spares s deed { station := s, next } :=
  ⟨rfl, rfl, fun _ => id, fun other hmem => .inr ⟨name, hnext other hmem, haim⟩, hstored⟩

/-! ### Moves -/

theorem spares_check {m : Move} (hperform : perform s (.check m) = some upshot) :
    Spares s (.check m) upshot := by
  obtain rfl := Option.some.inj hperform
  split
  · rename_i hdefined
    exact spares_of_aim (.inr hdefined) (by simp [aim?]) (by simp)
  · exact spares_of_end rfl rfl rfl rfl

theorem spares_search {m : Move} (hperform : perform s (.search m) = some upshot) :
    Spares s (.search m) upshot := by
  obtain rfl := Option.some.inj hperform
  split
  · exact spares_of_aim (.inl rfl) (by simp [aim?]) (by simp)
  · exact spares_of_aim (.inl rfl) (by simp [aim?]) (by simp)

theorem spares_fetch {m : Move} (hperform : perform s (.fetch m) = some upshot) :
    Spares s (.fetch m) upshot := by
  simp only [perform] at hperform
  split at hperform
  · rename_i row hread
    obtain rfl := Option.some.inj hperform
    have hstored := Fleet.device?_ok hread
    have huuid : row.uuid = m.uuid := Table.key_of_get? hstored
    refine spares_of_aim (.inl rfl) (by simp [aim?]) fun other target hmem => ?_
    obtain ⟨rfl, rfl⟩ := Deed.enlist.inj (List.mem_singleton.1 hmem)
    rwa [huuid]
  · obtain rfl := Option.some.inj hperform
    exact spares_of_end rfl rfl rfl rfl

theorem spares_leave {name uuid : String} (hperform : perform s (.leave name uuid) = some upshot) :
    Spares s (.leave name uuid) upshot := by
  obtain rfl := Option.some.inj hperform
  refine spares_of_end ?_ ?_ ?_ rfl
  · rw [Fleet.detach_eq]
  · rw [Fleet.detach_eq]
  · rw [Fleet.detach_eq]

theorem spares_join {m : Move} (hperform : perform s (.join m) = some upshot) :
    Spares s (.join m) upshot := by
  obtain rfl := Option.some.inj hperform
  refine spares_of_end ?_ ?_ ?_ rfl
  · rw [Fleet.attach_eq]
    rfl
  · rw [Fleet.attach_eq]
    rfl
  · rw [Fleet.attach_eq]
    rfl

/-! ### Rules -/

theorem spares_resolve {firing : Firing} (hperform : perform s (.resolve firing) = some upshot) :
    Spares s (.resolve firing) upshot := by
  simp only [perform] at hperform
  split at hperform
  · rename_i uuid _
    obtain rfl := Option.some.inj hperform
    exact spares_of_plain rfl rfl rfl (isPlain_of_mem_goOn firing [] [] [uuid])
  · split at hperform
    · obtain rfl := Option.some.inj hperform
      exact spares_of_end rfl rfl rfl rfl
    · obtain rfl := Option.some.inj hperform
      exact spares_of_plain rfl rfl rfl (isPlain_of_mem_goOn firing _ _ _)
  · obtain rfl := Option.some.inj hperform
    split
    · exact spares_of_plain rfl rfl rfl fun _ hmem => isPlain_of_mem_moves hmem
    · exact spares_of_end rfl rfl rfl rfl

theorem spares_seek {firing : Firing} {known : List Device} {unknown left : List String} {uuid : String}
    (hperform : perform s (.seek firing known unknown uuid left) = some upshot) :
    Spares s (.seek firing known unknown uuid left) upshot := by
  simp only [perform] at hperform
  split at hperform
  · obtain rfl := Option.some.inj hperform
    exact spares_of_plain rfl rfl rfl (isPlain_of_mem_goOn firing _ _ _)
  · obtain rfl := Option.some.inj hperform
    exact spares_of_plain rfl rfl rfl (isPlain_of_mem_goOn firing _ _ _)

theorem spares_gather {firing : Firing} {known : List Device} {unknown : List String}
    (hperform : perform s (.gather firing known unknown) = some upshot) :
    Spares s (.gather firing known unknown) upshot := by
  simp only [perform] at hperform
  split at hperform
  · obtain rfl := Option.some.inj hperform
    exact spares_of_end rfl rfl rfl rfl
  · obtain rfl := Option.some.inj hperform
    exact spares_of_plain rfl rfl rfl fun _ hmem => isPlain_of_mem_moves hmem

theorem spares_fireByHand {id : UInt32} {force : Bool}
    (hperform : perform s (.fireByHand id force) = some upshot) :
    Spares s (.fireByHand id force) upshot := by
  simp only [perform] at hperform
  split at hperform
  · obtain rfl := Option.some.inj hperform
    exact spares_of_end rfl rfl rfl rfl
  · obtain rfl := Option.some.inj hperform
    exact spares_of_plain rfl rfl rfl (by simp [isPlain])

theorem spares_complete {name : String} (hperform : perform s (.complete name) = some upshot) :
    Spares s (.complete name) upshot := by
  simp only [perform] at hperform
  split at hperform
  · obtain rfl := Option.some.inj hperform
    exact spares_of_end rfl rfl rfl rfl
  · obtain rfl := Option.some.inj hperform
    refine spares_of_plain rfl rfl rfl fun other hmem => ?_
    obtain ⟨rule, -, hmem⟩ := List.mem_flatMap.1 hmem
    simp only [List.mem_cons, List.not_mem_nil, or_false] at hmem
    obtain rfl | rfl := hmem
    · rfl
    · rfl

theorem spares_tellReleased (hperform : perform s .tellReleased = some upshot) :
    Spares s .tellReleased upshot := by
  simp only [perform] at hperform
  split at hperform
  · obtain rfl := Option.some.inj hperform
    exact spares_of_end rfl rfl rfl rfl
  · obtain rfl := Option.some.inj hperform
    exact spares_of_end rfl rfl rfl rfl
  · obtain rfl := Option.some.inj hperform
    exact spares_of_end rfl rfl rfl rfl
  · obtain rfl := Option.some.inj hperform
    exact spares_of_plain rfl rfl rfl (by simp [isPlain])

/-! ### Instances -/

theorem spares_define {definition : Instance} (hperform : perform s (.define definition) = some upshot) :
    Spares s (.define definition) upshot := by
  obtain rfl := Option.some.inj hperform
  refine ⟨rfl, rfl, fun name hname => ?_, fun other hmem => .inl ?_, by simp⟩
  · show (s.fleet.definitions.insert definition).has name = true
    rw [Table.has_insert, hname, Bool.or_true]
  · obtain rfl := List.mem_singleton.1 hmem
    rfl

theorem spares_build {definition : Instance} {stage : BuildStage}
    (hperform : perform s (.build definition stage) = some upshot) :
    Spares s (.build definition stage) upshot := by
  simp only [perform] at hperform
  split at hperform
  · obtain rfl := Option.some.inj hperform
    exact spares_of_plain rfl rfl rfl (by simp [isPlain])
  · obtain rfl := Option.some.inj hperform
    exact spares_of_end rfl rfl rfl rfl
  · obtain rfl := Option.some.inj hperform
    exact spares_of_end rfl rfl rfl rfl
  · obtain rfl := Option.some.inj hperform
    exact spares_of_plain rfl rfl rfl (by simp [isPlain])

/-! ## What comes of a deed -/

/-- A deed spares devices, rows and definitions, or it does one of a few other things. -/
inductive Outcome (s : Station) : Deed → Upshot → Prop where
  | spares {deed : Deed} {upshot : Upshot} (h : Spares s deed upshot) : Outcome s deed upshot
  /-- A device is registered. -/
  | enlists {row : Device} {target : String} (hunknown : s.fleet.devices.has row.uuid = false) :
      Outcome s (.enlist row target) {
        station := { s with fleet := { s.fleet with devices := s.fleet.devices.insert row } }
        next := [.setOut ⟨row.uuid, target⟩] }
  /-- A device is filed with its target. -/
  | setsOut {m : Move} {former : Device} (hformer : s.fleet.devices.get? m.uuid = some former) :
      Outcome s (.setOut m) {
        station := { s with fleet := { s.fleet with
          devices := s.fleet.devices.insert (former.assign (some m.target)) } }
        next := leaving former.instanceName m.uuid
          ++ [.write (former.assign (some m.target)), .join m] }
  /-- A row is written. -/
  | writes {row : Device} {storage : Storage} (hwrite : s.fleet.storage.write row = .done storage) :
      Outcome s (.write row) { station := { s with fleet := { s.fleet with storage } } }
  /-- An instance gets another definition, under which its devices go on. -/
  | replaces {definition : Instance} {old : String} :
      Outcome s (.replace definition old) {
        station := { s with fleet := { s.fleet.withdraw old (some definition.name) with
          definitions := (s.fleet.withdraw old (some definition.name)).definitions.insert definition } }
        next := (s.fleet.shifted old (some definition.name)).map .write
          ++ [.rebuild (s.fleet.definitions.get? old) (s.fleet.jobs.get? old) definition] }
  /-- An instance goes, and its devices are free. -/
  | removes {name : String} (retired : List Job) :
      Outcome s (.remove name) {
        station := { s with fleet := { s.fleet.withdraw name none with retired } }
        next := (s.fleet.shifted name none).map .write ++ [.refreshSize, .tellReleased] }
  /-- A device goes. -/
  | drops {uuid : String} (former : Option String) :
      Outcome s (.drop uuid) {
        station := { s with fleet := { s.fleet with devices := s.fleet.devices.erase uuid } }
        next := leaving former uuid ++ [.tellReleased] }
  /-- A device checks in, and works on for its instance. -/
  | locates {uuid : String} {place : Coordinate} {former seen : Device}
      (hformer : s.fleet.devices.get? uuid = some former) (huuid : seen.uuid = uuid)
      (hname : seen.instanceName = former.instanceName) :
      Outcome s (.locate uuid place)
        { station := { s with fleet := { s.fleet with devices := s.fleet.devices.insert seen } } }

theorem outcome_of_perform (hperform : deed.perform s = some upshot) : Outcome s deed upshot := by
  cases deed with
  | enlist row target =>
    obtain rfl := Option.some.inj hperform
    cases hknown : s.fleet.devices.has row.uuid with
    | true => exact .spares (spares_of_aim (.inl rfl) (by simp [aim?]) (by simp))
    | false => exact .enlists hknown
  | setOut m =>
    simp only [perform] at hperform
    split at hperform
    · obtain rfl := Option.some.inj hperform
      exact .spares (spares_of_end rfl rfl rfl rfl)
    · rename_i former hformer
      split at hperform
      · obtain rfl := Option.some.inj hperform
        exact .spares (spares_of_end rfl rfl rfl rfl)
      · obtain rfl := Option.some.inj hperform
        exact .setsOut hformer
  | write row =>
    simp only [perform] at hperform
    split at hperform
    · cases hperform
    · obtain rfl := Option.some.inj hperform
      exact .spares (spares_of_end rfl rfl rfl rfl)
    · rename_i storage hwrite
      obtain rfl := Option.some.inj hperform
      exact .writes hwrite
  | replace definition old =>
    obtain rfl := Option.some.inj hperform
    exact .replaces
  | remove name =>
    simp only [perform] at hperform
    split at hperform
    · obtain rfl := Option.some.inj hperform
      exact .spares (spares_of_end rfl rfl rfl rfl)
    · obtain rfl := Option.some.inj hperform
      exact .removes _
  | drop uuid =>
    simp only [perform] at hperform
    split at hperform
    · obtain rfl := Option.some.inj hperform
      exact .spares (spares_of_end rfl rfl rfl rfl)
    · obtain rfl := Option.some.inj hperform
      exact .drops _
  | locate uuid place =>
    obtain rfl := Option.some.inj hperform
    show Outcome s _ { station := { s with fleet := (s.fleet.locate uuid place s.now).2 } }
    obtain heq | ⟨former, seen, hformer, huuid, hname, heq⟩ := s.fleet.locate_cases uuid place s.now
    · rw [heq]
      exact .spares (spares_of_end rfl rfl rfl rfl)
    · rw [heq]
      exact .locates hformer huuid hname
  | check m => exact .spares (spares_check hperform)
  | search m => exact .spares (spares_search hperform)
  | fetch m => exact .spares (spares_fetch hperform)
  | leave name uuid => exact .spares (spares_leave hperform)
  | join m => exact .spares (spares_join hperform)
  | resolve firing => exact .spares (spares_resolve hperform)
  | seek firing known unknown uuid left => exact .spares (spares_seek hperform)
  | gather firing known unknown => exact .spares (spares_gather hperform)
  | fireByHand id force => exact .spares (spares_fireByHand hperform)
  | complete name => exact .spares (spares_complete hperform)
  | tellReleased => exact .spares (spares_tellReleased hperform)
  | define definition => exact .spares (spares_define hperform)
  | build definition stage => exact .spares (spares_build hperform)
  | count trigger | refreshSize =>
    obtain rfl := Option.some.inj hperform
    exact .spares (spares_of_end rfl rfl rfl rfl)
  | startUp today second | muster rules found name left =>
    obtain rfl := Option.some.inj hperform
    exact .spares (spares_of_plain rfl rfl rfl fun _ hmem => isPlain_of_mem_mustering hmem)
  | deploy rules found =>
    obtain rfl := Option.some.inj hperform
    exact .spares (spares_of_plain rfl rfl rfl fun _ hmem => isPlain_of_mem_moving hmem)
  | rebuild former job definition =>
    obtain rfl := Option.some.inj hperform
    exact .spares (spares_of_plain rfl rfl rfl (by simp [isPlain]))

end Deed

end ScanFleet
