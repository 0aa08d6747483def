import Mathlib.Data.List.Basic
import Mathlib.Logic.Relation
import ScanFleet.Proofs.Fleet.BuildSteps
import ScanFleet.Proofs.Fleet.Instances
import ScanFleet.Proofs.Fleet.Triggers
import ScanFleet.Proofs.Table
import ScanFleet.Station.Chores

set_option autoImplicit false

/-! # A chore on its own

The deeds of a chore that nothing else comes between come to what the operation of the station does.
`Deed.ComesTo` tells where a list of deeds leads to whatever is to be done after it, so that what is known of
the parts of a chore can be put together. A tick is the run in which the rules that are due are carried
out one after another (`Bustle.exists_spell_tickAt`). -/

namespace ScanFleet

/-- A chore goes on by its next deed. -/
inductive Proceeds : Station × Chore → Station × Chore → Prop where
  | deed {s : Station} {deed : Deed} {upshot : Upshot} (h : deed.perform s = some upshot)
      (rest : List Deed) (moved : Nat) :
      Proceeds (s, ⟨deed :: rest, moved⟩)
        (upshot.station, ⟨upshot.next ++ rest, moved + upshot.moved⟩)

/-- A chore goes on by some deeds, and nothing else is done in between. -/
abbrev Leads : Station × Chore → Station × Chore → Prop := Relation.ReflTransGen Proceeds

/-- How many moves came to an end, unless something hangs. -/
def tally : Except Halt Nat → Option Nat
  | .ok moved => some moved
  | .error .stalled => none
  | .error _ => some 0

namespace Deed

/-- Deeds that are done before all others lead to a station, and as many moves come to an end. When there
    is no count of moves, they lead to where one of them hangs. -/
def ComesTo (s : Station) (deeds : List Deed) : Option Nat → Station → Prop
  | some moved, t => ∀ rest before,
    Leads (s, ⟨deeds ++ rest, before⟩) (t, ⟨rest, before + moved⟩)
  | none, t => ∀ rest before, ∃ deed left after, deed.perform t = none
    ∧ Leads (s, ⟨deeds ++ rest, before⟩) (t, ⟨deed :: left, after⟩)

variable {s t u : Station} {deed : Deed} {deeds others : List Deed} {moved : Option Nat}

/-! ## Putting deeds together -/

theorem comesTo_nil (s : Station) : ComesTo s [] (some 0) s := fun _ _ => .refl

/-- What some deeds lead to is gone on from. -/
theorem ComesTo.of_leads {first : Nat}
    (hfirst : ∀ rest before, Leads (s, ⟨deeds ++ rest, before⟩) (t, ⟨others ++ rest, before + first⟩))
    (h : ComesTo t others moved u) : ComesTo s deeds (moved.map (first + ·)) u := by
  cases moved with
  | some moved =>
    intro rest before
    rw [← Nat.add_assoc]
    exact (hfirst rest before).trans (h rest (before + first))
  | none =>
    intro rest before
    obtain ⟨deed, left, after, hhangs, hleads⟩ := h rest (before + first)
    exact ⟨deed, left, after, hhangs, (hfirst rest before).trans hleads⟩

theorem ComesTo.append {first : Nat} (h : ComesTo s deeds (some first) t)
    (hothers : ComesTo t others moved u) : ComesTo s (deeds ++ others) (moved.map (first + ·)) u := by
  refine .of_leads (fun rest before => ?_) hothers
  rw [List.append_assoc]
  exact h (others ++ rest) before

/-- Deeds that end no move come before what ends some. -/
theorem ComesTo.append_of_idle (h : ComesTo s deeds (some 0) t) (hothers : ComesTo t others moved u) :
    ComesTo s (deeds ++ others) moved u := by
  have happend := h.append hothers
  simpa using happend

theorem ComesTo.append_of_hangs (h : ComesTo s deeds none t) (others : List Deed) :
    ComesTo s (deeds ++ others) none t := by
  intro rest before
  rw [List.append_assoc]
  exact h (others ++ rest) before

/-- A deed comes to what the next deeds come to. -/
theorem comesTo_of_perform {upshot : Upshot} (hperform : deed.perform s = some upshot)
    (h : ComesTo upshot.station upshot.next moved t) :
    ComesTo s [deed] (moved.map (upshot.moved + ·)) t :=
  .of_leads (fun rest before => .single (.deed hperform rest before)) h

/-- A deed that ends no move comes to what the next deeds come to. -/
theorem comesTo_of_next {next : List Deed} (hperform : deed.perform s = some { station := u, next })
    (h : ComesTo u next moved t) : ComesTo s [deed] moved t := by
  have hdeed := comesTo_of_perform hperform h
  simpa using hdeed

/-- A deed after which nothing is left to do. -/
theorem comesTo_of_done {ended : Nat} (hperform : deed.perform s = some { station := t, moved := ended }) :
    ComesTo s [deed] (some ended) t :=
  comesTo_of_perform hperform (comesTo_nil t)

theorem comesTo_of_hangs (h : deed.perform s = none) : ComesTo s [deed] none s :=
  fun rest before => ⟨deed, rest, before, h, .refl⟩

/-! ## Moves -/

theorem comesTo_leaving (s : Station) (name : Option String) (uuid : String) :
    ComesTo s (leaving name uuid) (some 0) { s with fleet := s.fleet.detach name uuid } := by
  cases name with
  | none => exact comesTo_nil s
  | some name => exact comesTo_of_done rfl

/-- A row is written before the device joins the job of its target. -/
theorem comesTo_write_join (s : Station) (row : Device) (m : Move) :
    ComesTo s [.write row, .join m]
      (match s.fleet.storage.write row with | .hangs => none | _ => some 1)
      { s with fleet :=
        match s.fleet.storage.write row with
        | .hangs => s.fleet
        | .failed => (s.fleet.attach (some m.target) m.uuid).countReassignment
        | .done storage =>
          (Fleet.attach { s.fleet with storage } (some m.target) m.uuid).countReassignment } := by
  have hjoin : ∀ t : Station, ComesTo t [.join m] (some 1)
      { t with fleet := (t.fleet.attach (some m.target) m.uuid).countReassignment } :=
    fun t => comesTo_of_done rfl
  cases hwrite : s.fleet.storage.write row with
  | hangs =>
    have hhangs : Deed.perform s (.write row) = none := by simp only [perform, hwrite]
    exact (comesTo_of_hangs hhangs).append_of_hangs [.join m]
  | failed =>
    have hfailed : Deed.perform s (.write row) = some { station := s } := by
      simp only [perform, hwrite]
    exact (comesTo_of_done hfailed).append (hjoin s)
  | done storage =>
    have hdone : Deed.perform s (.write row)
        = some { station := { s with fleet := { s.fleet with storage } } } := by
      simp only [perform, hwrite]
    exact (comesTo_of_done hdone).append (hjoin _)

/-- A device that sets out makes its whole move. -/
theorem comesTo_setOut {m : Move} {device : Device} (hget : s.fleet.devices.get? m.uuid = some device)
    (hoff : device.worksFor m.target = false) :
    ComesTo s [.setOut m] (tally ((s.fleet.move device m.target).1.map fun _ => 1))
      { s with fleet := (s.fleet.move device m.target).2 } := by
  have huuid : device.uuid = m.uuid := Table.key_of_get? hget
  let moved := device.assign (some m.target)
  let filed : Station := { s with fleet := { s.fleet with devices := s.fleet.devices.insert moved } }
  have hperform : Deed.perform s (.setOut m) = some {
      station := filed, next := leaving device.instanceName m.uuid ++ [.write moved, .join m] } := by
    simp only [perform, hget, hoff, Bool.false_eq_true, if_false]
    rfl
  let left : Station := { filed with fleet := filed.fleet.detach device.instanceName m.uuid }
  have hcomes := comesTo_of_next hperform ((comesTo_leaving filed device.instanceName m.uuid).append_of_idle
    (comesTo_write_join left moved m))
  have hout : left.fleet = s.fleet.setOut device m.target := by
    show Fleet.detach _ _ m.uuid = _
    rw [← huuid]
    rfl
  rw [hout, Fleet.storage_setOut] at hcomes
  rw [Fleet.move_eq, huuid]
  cases hwrite : s.fleet.storage.write moved with
  | hangs =>
    rw [hwrite] at hcomes
    exact hcomes
  | failed =>
    rw [hwrite] at hcomes
    exact hcomes
  | done storage =>
    rw [hwrite] at hcomes
    exact hcomes

/-- A device that is known to the fleet sets out, if it is not there already. -/
theorem comesTo_setOut_known {m : Move} {device : Device}
    (hget : s.fleet.devices.get? m.uuid = some device) :
    let order := if device.worksFor m.target then
      (.ok (), { s.fleet with devices := s.fleet.devices.insert device })
      else s.fleet.move device m.target
    ComesTo s [.setOut m] (tally (order.1.map fun _ => 1)) { s with fleet := order.2 } := by
  cases hoff : device.worksFor m.target with
  | false => exact comesTo_setOut hget hoff
  | true =>
    have hperform : Deed.perform s (.setOut m) = some { station := s, moved := 1 } := by
      simp only [perform, hget, hoff, if_true]
    have hkept : s.fleet.devices.insert device = s.fleet.devices := Table.insert_of_get? hget
    simp only [if_true, hkept]
    exact comesTo_of_done hperform

/-- A move files the device, whether it was filed before or not. -/
theorem move_insert (f : Fleet) (device : Device) (target : String) :
    ({ f with devices := f.devices.insert device } : Fleet).move device target
      = f.move device target := by
  have hkey : key device = key (device.assign (some target)) := rfl
  unfold Fleet.move
  dsimp only
  rw [Table.insert_insert _ hkey]

/-- An order to move a device, done without anything in between. -/
theorem comesTo_check (s : Station) (m : Move) :
    ComesTo s [.check m] (tally ((s.fleet.reassign m.uuid m.target).1.map fun _ => 1))
      { s with fleet := (s.fleet.reassign m.uuid m.target).2 } := by
  unfold Fleet.reassign Fleet.recruit
  cases hdefined : s.fleet.definitions.has m.target with
  | false => exact comesTo_of_done (by simp only [perform, hdefined]; rfl)
  | true =>
    have hcheck : Deed.perform s (.check m) = some { station := s, next := [.search m] } := by
      simp only [perform, hdefined, if_true]
    refine comesTo_of_next hcheck ?_
    cases hget : s.fleet.devices.get? m.uuid with
    | some device =>
      have hsearch : Deed.perform s (.search m) = some { station := s, next := [.setOut m] } := by
        simp only [perform, Table.has, hget, Option.isSome_some, if_true]
      exact comesTo_of_next hsearch (comesTo_setOut_known hget)
    | none =>
      have hsearch : Deed.perform s (.search m) = some { station := s, next := [.fetch m] } := by
        simp only [perform, Table.has, hget, Option.isSome_none, Bool.false_eq_true, if_false]
      refine comesTo_of_next hsearch ?_
      cases hstored : s.fleet.storage.device? m.uuid with
      | error error => exact comesTo_of_done (by simp only [perform, hstored]; rfl)
      | ok found =>
        cases found with
        | none => exact comesTo_of_done (by simp only [perform, hstored]; rfl)
        | some device =>
          have huuid : device.uuid = m.uuid := Table.key_of_get? (Fleet.device?_ok hstored)
          have hfetch : Deed.perform s (.fetch m)
              = some { station := s, next := [.enlist device m.target] } := by
            simp only [perform, hstored]
          let devices := s.fleet.devices.insert device
          have henlist : Deed.perform s (.enlist device m.target) = some {
              station := { s with fleet := { s.fleet with devices } }, next := [.setOut m] } := by
            simp only [perform, Table.has, huuid, hget, Option.isSome_none, Bool.false_eq_true, if_false]
            rfl
          have hfiled : devices.get? m.uuid = some device :=
            (Table.get?_insert _ device m.uuid).trans (if_pos huuid)
          have hcomes := comesTo_of_next hfetch (comesTo_of_next henlist (comesTo_setOut_known hfiled))
          rw [move_insert, Table.insert_insert _ rfl] at hcomes
          exact hcomes

/-! ### Many moves -/

theorem reassign_halts {f g : Fleet} {uuid target : String} {halt : Halt}
    (h : f.reassign uuid target = (.error halt, g)) : (∃ error, halt = .failed error) ∨ halt = .stalled := by
  obtain ⟨error, heq, -⟩ | ⟨device, -, -, -, -, heq⟩ | ⟨device, -, -, -, heq⟩ :=
    f.reassign_cases uuid target
  · rw [heq] at h
    cases h
    exact .inl ⟨error, rfl⟩
  · rw [heq] at h
    cases h
  · rw [heq, Fleet.move_eq] at h
    split at h
    · cases h
      exact .inr rfl
    · cases h
    · cases h

/-- Only a write that hangs holds up moves. -/
theorem moveAll_halts {f g : Fleet} {trigger : Option Trigger} {moves : List Move} {halt : Halt}
    (h : f.moveAll trigger moves = (.error halt, g)) : halt = .stalled := by
  induction moves generalizing f with
  | nil => cases h
  | cons m rest ih =>
    unfold Fleet.moveAll at h
    dsimp only at h
    split at h
    · split at h
      · cases h
      · rename_i hothers
        cases h
        exact ih hothers
    · exact ih h
    · rename_i hnot hfirst
      cases h
      obtain ⟨error, rfl⟩ | rfl := reassign_halts hfirst
      · exact absurd rfl (hnot error)
      · rfl

theorem carryOut_halts {f g : Fleet} {a : Assignment} {completed : Option String} {force : Bool}
    {halt : Halt} (h : f.carryOut a completed force = (.error halt, g)) :
    (∃ error, halt = .failed error) ∨ halt = .stalled := by
  unfold Fleet.carryOut at h
  split at h
  · rename_i error _
    cases h
    exact .inl ⟨error, rfl⟩
  · exact .inr (moveAll_halts h)

/-- Counting a trigger, if there is one, ends no move. -/
theorem comesTo_counting (s : Station) (trigger : Option Trigger) :
    ComesTo s (trigger.toList.map .count) (some 0)
      { s with fleet := trigger.elim s.fleet s.fleet.countTrigger } := by
  cases trigger with
  | none => exact comesTo_nil s
  | some trigger => exact comesTo_of_done rfl

theorem comesTo_moving (s : Station) (trigger : Option Trigger) (moves : List Move) :
    ComesTo s (moving trigger moves) (tally (s.fleet.moveAll trigger moves).1)
      { s with fleet := (s.fleet.moveAll trigger moves).2 } := by
  induction moves generalizing s with
  | nil => exact comesTo_nil s
  | cons m rest ih =>
    let counted : Station := { s with fleet := trigger.elim s.fleet s.fleet.countTrigger }
    have hfirst := (comesTo_counting s trigger).append_of_idle (comesTo_check counted m)
    show ComesTo s ((trigger.toList.map .count ++ [.check m]) ++ moving trigger rest) _ _
    unfold Fleet.moveAll
    dsimp only
    split
    · rename_i g hmoved
      have hmoved : counted.fleet.reassign m.uuid m.target = (.ok (), g) := hmoved
      rw [hmoved] at hfirst
      have hrest := ih { s with fleet := g }
      split
      · rename_i moved last hothers
        dsimp only at hrest
        rw [hothers] at hrest
        show ComesTo s _ (some (moved + 1)) _
        rw [Nat.add_comm]
        exact hfirst.append hrest
      · rename_i halt last hothers
        obtain rfl := moveAll_halts hothers
        dsimp only at hrest
        rw [hothers] at hrest
        exact hfirst.append hrest
    · rename_i error g hmoved
      have hmoved : counted.fleet.reassign m.uuid m.target = (.error (.failed error), g) := hmoved
      rw [hmoved] at hfirst
      exact hfirst.append_of_idle (ih { s with fleet := g })
    · rename_i halt g hnot hmoved
      have hmoved : counted.fleet.reassign m.uuid m.target = (.error halt, g) := hmoved
      rw [hmoved] at hfirst
      obtain ⟨error, rfl⟩ | rfl := reassign_halts hmoved
      · exact absurd rfl (hnot error)
      · exact hfirst.append_of_hangs _

/-! ## Rules -/

theorem moves_eq (firing : Firing) (devices : List Device) :
    firing.moves devices
      = moving none ((devices.filter (firing.rule.moves firing.completed firing.force)).map fun d =>
          ⟨d.uuid, firing.rule.target⟩) := by
  rw [Firing.moves, moving, List.flatMap_map, List.map_eq_flatMap]
  rfl

/-- The devices of a rule are looked for one after another. -/
theorem comesTo_goOn {firing : Firing} {known : List Device} {unknown uuids : List String}
    (h : ComesTo s (firing.goOn (known ++ uuids.filterMap s.fleet.devices.get?)
      (unknown ++ s.fleet.strangers uuids) []) moved t) :
    ComesTo s (firing.goOn known unknown uuids) moved t := by
  induction uuids generalizing known unknown with
  | nil =>
    rw [Fleet.strangers, List.filter_nil, List.filterMap_nil, List.append_nil, List.append_nil] at h
    exact h
  | cons uuid left ih =>
    cases hget : s.fleet.devices.get? uuid with
    | some device =>
      have hseek : Deed.perform s (.seek firing known unknown uuid left)
          = some { station := s, next := firing.goOn (known ++ [device]) unknown left } := by
        simp only [perform, hget]
      refine comesTo_of_next hseek (ih ?_)
      have hknown : s.fleet.devices.has uuid = true := by rw [Table.has, hget, Option.isSome_some]
      simp only [Fleet.strangers, List.filterMap_cons, hget, List.filter_cons, hknown, Bool.not_true,
        Bool.false_eq_true, if_false] at h
      rw [List.append_assoc]
      exact h
    | none =>
      have hseek : Deed.perform s (.seek firing known unknown uuid left)
          = some { station := s, next := firing.goOn known (unknown ++ [uuid]) left } := by
        simp only [perform, hget]
      refine comesTo_of_next hseek (ih ?_)
      have hunknown : s.fleet.devices.has uuid = false := by rw [Table.has, hget, Option.isSome_none]
      simp only [Fleet.strangers, List.filterMap_cons, hget, List.filter_cons, hunknown, Bool.not_false,
        if_true] at h
      rw [List.append_assoc]
      exact h

/-- Every device is found by its uuid. -/
theorem findDevices_rows (f : Fleet) :
    f.findDevices (f.devices.rows.map (·.uuid)) = .ok f.devices.rows := by
  have hknown : ∀ device ∈ f.devices.rows, f.devices.get? device.uuid = some device :=
    fun device hmem => Table.get?_of_mem hmem
  have hfound : (f.devices.rows.map (·.uuid)).filterMap f.devices.get? = f.devices.rows := by
    rw [List.filterMap_map]
    exact (List.filterMap_congr hknown).trans List.filterMap_some
  have hnone : f.strangers (f.devices.rows.map (·.uuid)) = [] := by
    refine List.filter_eq_nil_iff.2 fun uuid hmem => ?_
    obtain ⟨device, hdevice, rfl⟩ := List.mem_map.1 hmem
    rw [Table.has, hknown device hdevice]
    exact Bool.false_ne_true
  unfold Fleet.findDevices
  rw [hnone, hfound]

/-- A rule is carried out by the moves of the devices that are found. -/
theorem comesTo_found {firing : Firing} {uuids : List String}
    (huuids : s.fleet.subjectUuids firing.rule firing.force = .ok uuids) :
    let outcome := s.fleet.carryOut firing.rule firing.completed firing.force
    ComesTo s (firing.goOn [] [] uuids) (tally outcome.1) { s with fleet := outcome.2 } := by
  refine comesTo_goOn ?_
  rw [List.nil_append, List.nil_append]
  unfold Fleet.carryOut Fleet.subjects
  rw [huuids]
  dsimp only
  unfold Fleet.findDevices
  cases hunknown : s.fleet.strangers uuids with
  | nil =>
    show ComesTo s (firing.moves _) _ _
    rw [moves_eq]
    exact comesTo_moving s none _
  | cons uuid left =>
    show ComesTo s [.gather firing _ (uuid :: left)] _ _
    dsimp only
    cases hstored : s.fleet.storage.devicesAmong (uuid :: left) with
    | error error =>
      have hgather : Deed.perform s
          (.gather firing (uuids.filterMap s.fleet.devices.get?) (uuid :: left))
            = some { station := s } := by
        simp only [perform, hstored]
      exact comesTo_of_done hgather
    | ok stored =>
      have hgather : Deed.perform s
          (.gather firing (uuids.filterMap s.fleet.devices.get?) (uuid :: left)) = some {
            station := s
            next := firing.moves (uuids.filterMap s.fleet.devices.get? ++ stored) } := by
        simp only [perform, hstored]
      refine comesTo_of_next hgather ?_
      rw [moves_eq]
      exact comesTo_moving s none _

/-- A rule that is carried out without anything in between. -/
theorem comesTo_resolve (s : Station) (firing : Firing) :
    let outcome := s.fleet.carryOut firing.rule firing.completed firing.force
    ComesTo s [.resolve firing] (tally outcome.1) { s with fleet := outcome.2 } := by
  cases hscope : firing.rule.scope with
  | device uuid =>
    have hresolve : Deed.perform s (.resolve firing)
        = some { station := s, next := firing.goOn [] [] [uuid] } := by
      simp only [perform, hscope]
    exact comesTo_of_next hresolve (comesTo_found (by rw [Fleet.subjectUuids, hscope]))
  | group name =>
    cases hgroup : s.fleet.storage.group? name with
    | error error =>
      have hresolve : Deed.perform s (.resolve firing) = some { station := s } := by
        simp only [perform, hscope, hgroup]
      have hfails : s.fleet.carryOut firing.rule firing.completed firing.force
          = (.error (.failed error), s.fleet) := by
        rw [Fleet.carryOut, Fleet.subjects, Fleet.subjectUuids, hscope]
        dsimp only
        rw [hgroup]
        rfl
      rw [hfails]
      exact comesTo_of_done hresolve
    | ok group =>
      have hresolve : Deed.perform s (.resolve firing) = some {
          station := s, next := firing.goOn [] [] ((group.map (·.members)).getD []) } := by
        simp only [perform, hscope, hgroup]
      refine comesTo_of_next hresolve (comesTo_found ?_)
      rw [Fleet.subjectUuids, hscope]
      dsimp only
      rw [hgroup]
      rfl
  | unspecified =>
    have hresolve : Deed.perform s (.resolve firing) = some {
        station := s, next := if firing.force then firing.moves s.fleet.devices.rows else [] } := by
      simp only [perform, hscope]
    refine comesTo_of_next hresolve ?_
    cases hforce : firing.force with
    | false =>
      have hnone : s.fleet.carryOut firing.rule firing.completed false = (.ok 0, s.fleet) := by
        rw [Fleet.carryOut, Fleet.subjects, Fleet.subjectUuids, hscope]
        rfl
      rw [hnone]
      exact comesTo_nil s
    | true =>
      have hall : s.fleet.carryOut firing.rule firing.completed true
          = s.fleet.moveAll none ((s.fleet.devices.rows.filter
              (firing.rule.moves firing.completed true)).map fun d => ⟨d.uuid, firing.rule.target⟩) := by
        rw [Fleet.carryOut, Fleet.subjects, Fleet.subjectUuids, hscope]
        dsimp only
        rw [if_pos rfl, findDevices_rows]
      rw [if_pos rfl, hall, moves_eq, hforce]
      exact comesTo_moving s none _

theorem fireCompletion_halts {f g : Fleet} {name : String} {rules : List Assignment} {halt : Halt}
    (h : f.fireCompletion name rules = (.error halt, g)) : halt = .stalled := by
  induction rules generalizing f with
  | nil => cases h
  | cons rule rest ih =>
    unfold Fleet.fireCompletion at h
    split at h
    · split at h
      · cases h
      · rename_i hothers
        cases h
        exact ih hothers
    · exact ih h
    · rename_i hnot hfirst
      cases h
      obtain ⟨error, rfl⟩ | rfl := carryOut_halts hfirst
      · exact absurd rfl (hnot error)
      · rfl

/-- The rules of a completion are carried out one after another. -/
theorem comesTo_completion (s : Station) (name : String) (rules : List Assignment) :
    let outcome := s.fleet.fireCompletion name rules
    ComesTo s (rules.flatMap fun rule => [.count .completion, .resolve { rule, completed := name }])
      (tally outcome.1) { s with fleet := outcome.2 } := by
  induction rules generalizing s with
  | nil => exact comesTo_nil s
  | cons rule rest ih =>
    let counted : Station := { s with fleet := s.fleet.countTrigger .completion }
    have hcount : ComesTo s [.count .completion] (some 0) counted := comesTo_of_done rfl
    have hfirst := hcount.append_of_idle (comesTo_resolve counted { rule, completed := name })
    dsimp only at hfirst
    rw [List.flatMap_cons]
    unfold Fleet.fireCompletion
    dsimp only
    split
    · rename_i moved g hfired
      rw [hfired] at hfirst
      have hrest := ih { s with fleet := g }
      dsimp only at hrest
      split
      · rename_i others last hothers
        rw [hothers] at hrest
        exact hfirst.append hrest
      · rename_i halt last hothers
        obtain rfl := fireCompletion_halts hothers
        rw [hothers] at hrest
        exact hfirst.append hrest
    · rename_i error g hfired
      rw [hfired] at hfirst
      exact hfirst.append_of_idle (ih { s with fleet := g })
    · rename_i halt g hnot hfired
      rw [hfired] at hfirst
      obtain ⟨error, rfl⟩ | rfl := carryOut_halts hfired
      · exact absurd rfl (hnot error)
      · exact hfirst.append_of_hangs _

theorem comesTo_complete (s : Station) (name : String) :
    ComesTo s [.complete name] (tally (s.complete name).1) (s.complete name).2 := by
  unfold Station.complete
  cases htoday : s.today? with
  | none =>
    have hcomplete : Deed.perform s (.complete name) = some { station := s } := by
      simp only [perform, htoday]
    exact comesTo_of_done hcomplete
  | some today =>
    have hcomplete : Deed.perform s (.complete name) = some {
        station := s
        next := (s.schedule.completionRules name today).flatMap fun rule =>
          [.count .completion, .resolve { rule, completed := name }] } := by
      simp only [perform, htoday]
    exact comesTo_of_next hcomplete (comesTo_completion s name _)

theorem comesTo_fireByHand (s : Station) (id : UInt32) (force : Bool) :
    ComesTo s [.fireByHand id force] (tally (s.fireByHand id force).1) (s.fireByHand id force).2 := by
  unfold Station.fireByHand
  cases hrule : s.schedule.rule? id with
  | none =>
    have hfire : Deed.perform s (.fireByHand id force) = some { station := s } := by
      simp only [perform, hrule]
    exact comesTo_of_done hfire
  | some rule =>
    let counted : Station := { s with fleet := s.fleet.countTrigger .manual }
    have hfire : Deed.perform s (.fireByHand id force)
        = some { station := counted, next := [.resolve { rule, force }] } := by
      simp only [perform, hrule]
      rfl
    exact comesTo_of_next hfire (comesTo_resolve counted { rule, force })

/-! ## Released devices -/

/-- Only the groups that rules are about matter for where the rules place devices. -/
theorem placementsAmong_congr {f : Fleet} {rules : List Assignment} {members others : String → List String}
    (h : ∀ a ∈ rules, ∀ name, a.scope = .group name → members name = others name) :
    f.placementsAmong members rules = f.placementsAmong others rules := by
  have hnames (uuid : String) (a : Assignment) (ha : a ∈ rules) :
      a.names members uuid = a.names others uuid := by
    unfold Assignment.names
    cases hscope : a.scope with
    | device other => rfl
    | group name =>
      show (members name).contains uuid = (others name).contains uuid
      rw [h a ha name hscope]
    | unspecified => rfl
  have hlatest (uuid : String) :
      Fleet.latestNaming? members rules uuid = Fleet.latestNaming? others rules uuid := by
    unfold Fleet.latestNaming?
    rw [List.filter_congr (hnames uuid)]
  unfold Fleet.placementsAmong
  simp only [hlatest]

/-- Groups were found as storage shows them, among them those of the rules that are not left. -/
structure Mustered (s : Station) (rules : List Assignment) (found : List (String × List String))
    (left : List Assignment) : Prop where
  shown : ∀ name members, found.lookup name = some members → members = s.fleet.storage.members name
  found : ∀ a ∈ rules, a ∈ left ∨ ∀ name, a.scope = .group name → (found.lookup name).isSome

section

variable {rules left : List Assignment} {found : List (String × List String)} {first : Assignment}

/-- When no rule is left, devices are placed where they belong. -/
theorem Mustered.placements_eq (h : Mustered s rules found []) :
    s.fleet.placementsAmong (fun name => (found.lookup name).getD []) rules = s.fleet.placements rules := by
  refine placementsAmong_congr fun a ha name hscope => ?_
  obtain hmem | hfound := h.found a ha
  · cases hmem
  · obtain ⟨members, hlookup⟩ := Option.isSome_iff_exists.1 (hfound name hscope)
    rw [hlookup]
    exact h.shown name members hlookup

/-- A rule whose group was found is done with. -/
theorem Mustered.pass (h : Mustered s rules found (first :: left))
    (hfirst : ∀ name, first.scope = .group name → (found.lookup name).isSome) :
    Mustered s rules found left := by
  refine ⟨h.shown, fun a ha => ?_⟩
  obtain hmem | hfound := h.found a ha
  · obtain rfl | hmem := List.mem_cons.1 hmem
    · exact .inr hfirst
    · exact .inl hmem
  · exact .inr hfound

/-- Another group is looked up. -/
theorem Mustered.extend (h : Mustered s rules found left) (name : String) :
    Mustered s rules ((name, s.fleet.storage.members name) :: found) left := by
  refine ⟨fun other members hlookup => ?_, fun a ha => (h.found a ha).imp id fun hfound other hscope => ?_⟩
  · rw [List.lookup_cons] at hlookup
    split at hlookup
    · rename_i hsame
      rw [← Option.some.inj hlookup, beq_iff_eq.1 hsame]
    · exact h.shown other members hlookup
  · rw [List.lookup_cons]
    split
    · rfl
    · exact hfound other hscope

/-- The groups that are left are looked up, and devices are placed where they belong. -/
theorem comesTo_mustering (h : Mustered s rules found left) :
    ComesTo s (mustering rules found left) (tally (s.fleet.placeAll rules).1)
      { s with fleet := (s.fleet.placeAll rules).2 } := by
  induction left generalizing found with
  | nil =>
    have hdeploy : Deed.perform s (.deploy rules found)
        = some { station := s, next := moving (some .startup) (s.fleet.placements rules) } := by
      simp only [perform, h.placements_eq]
    exact comesTo_of_next hdeploy (comesTo_moving s _ _)
  | cons first left ih =>
    unfold mustering
    split
    · rename_i name hscope
      have hname (other : String) (hother : first.scope = .group other) : name = other :=
        AssignmentScope.group.inj (hscope.symm.trans hother)
      split
      · rename_i hfound
        exact ih (h.pass fun other hother => hname other hother ▸ hfound)
      · have hmuster : Deed.perform s (.muster rules found name left) = some {
            station := s
            next := mustering rules ((name, s.fleet.storage.members name) :: found) left } := rfl
        refine comesTo_of_next hmuster (ih ((h.extend name).pass fun other hother => ?_))
        rw [← hname other hother, List.lookup_cons, beq_self_eq_true]
        rfl
    · rename_i hscope
      exact ih (h.pass fun name hgroup => absurd hgroup (hscope name))

end

theorem comesTo_startUp (s : Station) (today : Date) (second : Nat) :
    let outcome := s.startUpAt today second
    ComesTo s [.startUp today second] (tally outcome.1) outcome.2 := by
  let passed : Station := { s with schedule := s.schedule.countPass }
  let rules := s.schedule.startupRules today second
  have hstart : Deed.perform s (.startUp today second)
      = some { station := passed, next := mustering rules [] rules } := rfl
  exact comesTo_of_next hstart (comesTo_mustering ⟨fun _ _ => nofun, fun _ => .inl⟩)

theorem comesTo_tellReleased (s : Station) :
    ∃ moved, ComesTo s [.tellReleased] moved s.tellReleased.2 := by
  unfold Station.tellReleased Station.startUp
  cases hlistener : s.listener with
  | nobody => exact ⟨some 0, comesTo_of_done (by simp only [perform, hlistener])⟩
  | log => exact ⟨some 0, comesTo_of_done (by simp only [perform, hlistener])⟩
  | schedule =>
    cases htoday : s.today? with
    | none => exact ⟨some 0, comesTo_of_done (by simp only [perform, hlistener, htoday])⟩
    | some today =>
      have htell : Deed.perform s .tellReleased
          = some { station := s, next := [.startUp today s.localSecond] } := by
        simp only [perform, hlistener, htoday]
      refine ⟨tally (s.startUpAt today s.localSecond).1, comesTo_of_next htell ?_⟩
      have hstart := comesTo_startUp s today s.localSecond
      dsimp only at hstart ⊢
      cases hplaced : s.startUpAt today s.localSecond with
      | mk answer placed =>
        rw [hplaced] at hstart
        cases answer with
        | ok moved => exact hstart
        | error halt => exact hstart

theorem comesTo_writes (s : Station) (rows : List Device) :
    ComesTo s (rows.map .write) (if (s.fleet.storage.writeAll rows).1 then some 0 else none)
      { s with fleet := { s.fleet with storage := (s.fleet.storage.writeAll rows).2 } } := by
  induction rows generalizing s with
  | nil => exact comesTo_nil s
  | cons row rest ih =>
    rw [List.map_cons]
    unfold Storage.writeAll
    cases hwrite : s.fleet.storage.write row with
    | hangs =>
      have hhangs : Deed.perform s (.write row) = none := by simp only [perform, hwrite]
      exact (comesTo_of_hangs hhangs).append_of_hangs _
    | failed =>
      have hfailed : Deed.perform s (.write row) = some { station := s } := by
        simp only [perform, hwrite]
      exact (comesTo_of_done hfailed).append_of_idle (ih s)
    | done storage =>
      have hdone : Deed.perform s (.write row)
          = some { station := { s with fleet := { s.fleet with storage } } } := by
        simp only [perform, hwrite]
      exact (comesTo_of_done hdone).append_of_idle (ih _)

theorem comesTo_remove (s : Station) (name : String) :
    ∃ moved, ComesTo s [.remove name] moved (s.removeInstance name).2 := by
  unfold Station.removeInstance Fleet.removeInstance
  cases hunknown : !s.fleet.definitions.has name && !s.fleet.jobs.has name with
  | true => exact ⟨some 0, comesTo_of_done (by simp only [perform, hunknown, if_true]; rfl)⟩
  | false =>
    let retired := s.fleet.retired ++ ((s.fleet.jobs.get? name).map Job.stop).toList
    let released : Station := { s with fleet := { s.fleet.withdraw name none with retired } }
    have hremove : Deed.perform s (.remove name) = some {
        station := released
        next := (s.fleet.shifted name none).map .write ++ [.refreshSize, .tellReleased] } := by
      simp only [perform, hunknown, Bool.false_eq_true, if_false]
      rfl
    have hwrites := comesTo_writes released (s.fleet.shifted name none)
    dsimp only [Bool.false_eq_true, if_false]
    cases hwritten : released.fleet.storage.writeAll (s.fleet.shifted name none) with
    | mk ended storage =>
      rw [hwritten] at hwrites
      cases ended with
      | false => exact ⟨none, comesTo_of_next hremove (hwrites.append_of_hangs _)⟩
      | true =>
        let written : Station := { released with fleet := { released.fleet with storage } }
        let sized : Station := { written with fleet := written.fleet.refreshSize }
        have hrefresh : ComesTo written [.refreshSize] (some 0) sized := comesTo_of_done rfl
        obtain ⟨moved, htold⟩ := comesTo_tellReleased sized
        exact ⟨moved, comesTo_of_next hremove (hwrites.append_of_idle (hrefresh.append_of_idle htold))⟩

theorem comesTo_drop (s : Station) (uuid : String) :
    ∃ moved, ComesTo s [.drop uuid] moved (s.removeDevice uuid).2 := by
  unfold Station.removeDevice Fleet.removeDevice
  cases hget : s.fleet.devices.get? uuid with
  | none => exact ⟨some 0, comesTo_of_done (by simp only [perform, hget]; rfl)⟩
  | some device =>
    let devices := s.fleet.devices.erase uuid
    let dropped : Station := { s with fleet := { s.fleet with devices } }
    have hdrop : Deed.perform s (.drop uuid) = some {
        station := dropped, next := leaving device.instanceName uuid ++ [.tellReleased] } := by
      simp only [perform, hget]
      rfl
    obtain ⟨moved, htold⟩ := comesTo_tellReleased
      { dropped with fleet := dropped.fleet.detach device.instanceName uuid }
    exact ⟨moved, comesTo_of_next hdrop ((comesTo_leaving dropped _ uuid).append_of_idle htold)⟩

/-! ## Instances -/

/-- The steps of a build are made by deeds. -/
theorem leads_of_reaches {definition : Instance} {a b : BuildStage × Lookups}
    (h : BuildStage.Reaches s.fleet definition s.now a b) (rest : List Deed) (moved : Nat) :
    Leads ({ s with fleet := { s.fleet with lookups := a.2 } }, ⟨.build definition a.1 :: rest, moved⟩)
      ({ s with fleet := { s.fleet with lookups := b.2 } }, ⟨.build definition b.1 :: rest, moved⟩) := by
  induction h with
  | refl => exact .refl
  | @tail c d _ hstep ih =>
    obtain ⟨stage, lookups⟩ := c
    obtain ⟨hlive, rfl⟩ := hstep
    let f := { s.fleet with lookups }
    have hperform : Deed.perform { s with fleet := f } (.build definition stage) = some {
        station := { s with fleet := { f with lookups := (stage.step f definition s.now).2 } }
        next := [.build definition (stage.step f definition s.now).1] } := by
      cases stage with
      | ended answer => exact absurd rfl (hlive answer)
      | _ => rfl
    exact ih.tail (.deed hperform rest moved)

/-- A job is built and made live. -/
theorem comesTo_build (s : Station) (definition : Instance) :
    ComesTo s [.build definition (.opening definition)] (some 0)
      (s.onFleet (s.fleet.install definition s.now)).2 := by
  let built : Station := { s with fleet := (s.fleet.build definition s.now).2 }
  let answer := (s.fleet.build definition s.now).1
  have hsteps (rest : List Deed) (before : Nat) :
      Leads (s, ⟨.build definition (.opening definition) :: rest, before⟩)
        (built, ⟨.build definition (.ended answer) :: rest, before⟩) :=
    leads_of_reaches BuildStage.reaches_build rest before
  have hended : ComesTo built [.build definition (.ended answer)] (some 0)
      (s.onFleet (s.fleet.install definition s.now)).2 := by
    unfold Fleet.install
    subst built answer
    cases s.fleet.build definition s.now with
    | mk answer f =>
      cases answer with
      | ok job => exact comesTo_of_next rfl (comesTo_of_done rfl)
      | error halt =>
        cases halt with
        | failed error => exact comesTo_of_done rfl
        | _ => exact comesTo_of_done rfl
  exact hended.of_leads hsteps

theorem comesTo_define (s : Station) (definition : Instance) :
    ComesTo s [.define definition] (some 0) (s.onFleet (s.fleet.addInstance definition s.now)).2 := by
  let definitions := s.fleet.definitions.insert definition
  let defined : Station := { s with fleet := { s.fleet with definitions } }
  have hdefine : Deed.perform s (.define definition)
      = some { station := defined, next := [.build definition (.opening definition)] } := rfl
  exact comesTo_of_next hdefine (comesTo_build defined definition)

/-- An instance that is replaced, if all rows of its devices get written. -/
theorem comesTo_replace (s : Station) (definition : Instance) (old : String)
    (hends : (s.fleet.storage.writeAll (s.fleet.shifted old (some definition.name))).1 = true) :
    ComesTo s [.replace definition old] (some 0)
      (s.onFleet (s.fleet.replaceInstance definition old s.now)).2 := by
  let other := some definition.name
  let withdrawn := s.fleet.withdraw old other
  let definitions := withdrawn.definitions.insert definition
  let replaced : Station := { s with fleet := { withdrawn with definitions } }
  have hreplace : Deed.perform s (.replace definition old) = some {
      station := replaced
      next := (s.fleet.shifted old other).map .write
        ++ [.rebuild (s.fleet.definitions.get? old) (s.fleet.jobs.get? old) definition] } := rfl
  have hwrites := comesTo_writes replaced (s.fleet.shifted old other)
  have hwritten : replaced.fleet.storage.writeAll (s.fleet.shifted old other)
      = (true, (s.fleet.storage.writeAll (s.fleet.shifted old other)).2) := by
    rw [← hends]
    rfl
  unfold Fleet.replaceInstance
  dsimp only
  rw [show (s.fleet.withdraw old other).storage.writeAll _ = _ from hwritten]
  rw [hwritten] at hwrites
  exact comesTo_of_next hreplace
    (hwrites.append_of_idle (comesTo_of_next rfl (comesTo_build _ definition)))

end Deed

/-! ## Instructions -/

/-- The station after the operation that an instruction asks for. -/
def Station.obey (s : Station) : Instruction → Station
  | .reassign m => (s.onFleet (s.fleet.reassign m.uuid m.target)).2
  | .carryOut firing =>
    (s.onFleet (s.fleet.carryOut firing.rule firing.completed firing.force)).2
  | .fireByHand id force => (s.fireByHand id force).2
  | .complete name => (s.complete name).2
  | .startUp today second => (s.startUpAt today second).2
  | .addInstance definition => (s.onFleet (s.fleet.addInstance definition s.now)).2
  | .replaceInstance definition old => (s.onFleet (s.fleet.replaceInstance definition old s.now)).2
  | .removeInstance name => (s.removeInstance name).2
  | .removeDevice uuid => (s.removeDevice uuid).2
  | .locate uuid place => (s.onFleet (s.fleet.locate uuid place s.now)).2

/-- The rows that a replacement writes all get written. -/
def Instruction.Ends (s : Station) : Instruction → Prop
  | .replaceInstance definition old =>
    (s.fleet.storage.writeAll (s.fleet.shifted old (some definition.name))).1 = true
  | _ => True

/-- An instruction that is followed without anything in between is the operation of the station. -/
theorem Instruction.comesTo_opening {s : Station} {instruction : Instruction} (h : instruction.Ends s) :
    ∃ moved, Deed.ComesTo s [instruction.opening] moved (s.obey instruction) := by
  cases instruction with
  | reassign m => exact ⟨_, Deed.comesTo_check s m⟩
  | carryOut firing => exact ⟨_, Deed.comesTo_resolve s firing⟩
  | fireByHand id force => exact ⟨_, Deed.comesTo_fireByHand s id force⟩
  | complete name => exact ⟨_, Deed.comesTo_complete s name⟩
  | startUp today second => exact ⟨_, Deed.comesTo_startUp s today second⟩
  | addInstance definition => exact ⟨_, Deed.comesTo_define s definition⟩
  | replaceInstance definition old => exact ⟨_, Deed.comesTo_replace s definition old h⟩
  | removeInstance name => exact Deed.comesTo_remove s name
  | removeDevice uuid => exact Deed.comesTo_drop s uuid
  | locate uuid place => exact ⟨some 0, Deed.comesTo_of_done rfl⟩

/-! ## Turns -/

namespace Bustle

theorem turns_append (b : Bustle) (ks ls : List Nat) : b.turns (ks ++ ls) = (b.turns ks).turns ls :=
  List.foldl_append

/-- The next deed of a chore among others. -/
theorem turn_of_perform {s : Station} {deed : Deed} {upshot : Upshot} (h : deed.perform s = some upshot)
    (before after : List Chore) (rest : List Deed) (moved : Nat) :
    turn ⟨s, before ++ ⟨deed :: rest, moved⟩ :: after⟩ before.length
      = ⟨upshot.station, before ++ ⟨upshot.next ++ rest, moved + upshot.moved⟩ :: after⟩ := by
  unfold turn
  simp only [List.getElem?_append_right (Nat.le_refl _), Nat.sub_self, List.getElem?_cons_zero, h]
  rw [List.set_append_right _ _ (Nat.le_refl _), Nat.sub_self, List.set_cons_zero]

/-- A chore goes on when it is its turn some times. -/
theorem exists_turns_of_leads {a b : Station × Chore} (h : Leads a b) (before after : List Chore) :
    ∃ n, turns ⟨a.1, before ++ a.2 :: after⟩ (.replicate n before.length)
      = ⟨b.1, before ++ b.2 :: after⟩ := by
  induction h with
  | refl => exact ⟨0, rfl⟩
  | tail _ hdeed ih =>
    obtain ⟨n, hturns⟩ := ih
    obtain ⟨hperform, rest, moved⟩ := hdeed
    refine ⟨n + 1, ?_⟩
    rw [List.replicate_succ', turns_append, hturns]
    exact turn_of_perform hperform before after rest moved

/-- More turns change nothing when the chore does nothing in its turn. -/
theorem turns_eq_of_le {b c : Bustle} {k n : Nat} (h : b.turns (.replicate n k) = c) (hstill : c.turn k = c)
    {spell : Nat} (hle : n ≤ spell) : b.turns (.replicate spell k) = c := by
  induction hle with
  | refl => exact h
  | step _ ih => rw [List.replicate_succ', turns_append, ih]; exact hstill

/-- A chore that is done does nothing in its turn. -/
theorem turn_done (s : Station) (before after : List Chore) (moved : Nat) :
    turn ⟨s, before ++ ⟨[], moved⟩ :: after⟩ before.length = ⟨s, before ++ ⟨[], moved⟩ :: after⟩ := by
  unfold turn
  simp only [List.getElem?_append_right (Nat.le_refl _), Nat.sub_self, List.getElem?_cons_zero]

/-- So does one that hangs. -/
theorem turn_of_hangs {s : Station} {deed : Deed} (h : deed.perform s = none) (before after : List Chore)
    (rest : List Deed) (moved : Nat) :
    turn ⟨s, before ++ ⟨deed :: rest, moved⟩ :: after⟩ before.length
      = ⟨s, before ++ ⟨deed :: rest, moved⟩ :: after⟩ := by
  unfold turn
  simp only [List.getElem?_append_right (Nat.le_refl _), Nat.sub_self, List.getElem?_cons_zero, h]

/-- A chore that takes its turns alone is done after a long spell, or hangs. -/
theorem exists_spell_of_comesTo {s t : Station} {deeds : List Deed} {moved : Option Nat}
    (h : Deed.ComesTo s deeds moved t) (before after : List Chore) :
    ∃ n chore, (∀ rest, reckon (chore :: rest) = moved.bind fun moved => (reckon rest).map (moved + ·))
      ∧ ∀ spell, n ≤ spell →
        turns ⟨s, before ++ { deeds } :: after⟩ (.replicate spell before.length)
          = ⟨t, before ++ chore :: after⟩ := by
  cases moved with
  | some moved =>
    have hleads := h [] 0
    rw [List.append_nil, Nat.zero_add] at hleads
    obtain ⟨n, hturns⟩ := exists_turns_of_leads hleads before after
    exact ⟨n, ⟨[], moved⟩, fun rest => rfl, fun spell => turns_eq_of_le hturns (turn_done t before after _)⟩
  | none =>
    obtain ⟨deed, left, ended, hhangs, hleads⟩ := h [] 0
    rw [List.append_nil] at hleads
    obtain ⟨n, hturns⟩ := exists_turns_of_leads hleads before after
    exact ⟨n, ⟨deed :: left, ended⟩, fun rest => rfl,
      fun spell => turns_eq_of_le hturns (turn_of_hangs hhangs before after _ _)⟩

/-- A round of long spells carries rules out one after another. -/
theorem exists_spell_carryOutAll (rules : List Assignment) (s : Station) (before : List Chore) :
    ∃ n ended, reckon ended = (s.fleet.carryOutAll rules).1 ∧ ended.length = rules.length
      ∧ ∀ spell, n ≤ spell →
        spells ⟨s, before ++ rules.map fun rule => { deeds := [.resolve { rule }] }⟩ spell
            (.range' before.length rules.length)
          = ⟨{ s with fleet := (s.fleet.carryOutAll rules).2 }, before ++ ended⟩ := by
  induction rules generalizing s before with
  | nil => exact ⟨0, [], rfl, rfl, fun _ _ => rfl⟩
  | cons rule rest ih =>
    let others := rest.map fun rule => ({ deeds := [.resolve { rule }] } : Chore)
    obtain ⟨n, chore, hreckon, hfirst⟩ :=
      exists_spell_of_comesTo (Deed.comesTo_resolve s { rule }) before others
    let fired : Station := { s with fleet := (s.fleet.carryOut rule none false).2 }
    obtain ⟨m, ended, hended, hlength, hothers⟩ := ih fired (before ++ [chore])
    refine ⟨max n m, chore :: ended, ?_, by rw [List.length_cons, hlength, List.length_cons],
      fun spell hspell => ?_⟩
    · have hfleet : fired.fleet = (s.fleet.carryOut rule none false).2 := rfl
      unfold Fleet.carryOutAll
      rw [hreckon, hended, hfleet]
      dsimp only
      cases hfired : s.fleet.carryOut rule none false with
      | mk answer g =>
        cases answer with
        | ok moved => rfl
        | error halt =>
          obtain ⟨error, rfl⟩ | rfl := Deed.carryOut_halts hfired
          · simp [tally]
          · rfl
    · have hrest := hothers spell (Nat.le_trans (Nat.le_max_right n m) hspell)
      rw [List.append_assoc, List.append_assoc, List.length_append, List.length_singleton] at hrest
      rw [Fleet.carryOutAll_cons, List.length_cons, List.range'_succ]
      have hspell := hfirst spell (Nat.le_trans (Nat.le_max_left n m) hspell)
      exact (congrArg (spells · spell _) hspell).trans hrest

/-- When spells are long enough, the rules of a tick are carried out one after another. -/
theorem exists_spell_tickAt (s : Station) (today : Date) (second : Nat) :
    ∃ n, ∀ spell, n ≤ spell → s.tickInRounds today second spell 1 = s.tickAt today second := by
  let due := (s.schedule.tick today second).1
  let schedule := (s.schedule.tick today second).2
  let counted := { s with schedule, fleet := due.foldl (fun f _ => f.countTrigger .clock) s.fleet }
  let started := due.map fun rule => ({ deeds := [.resolve { rule }] } : Chore)
  obtain ⟨n, ended, hreckon, hlength, hspells⟩ := exists_spell_carryOutAll due counted []
  refine ⟨n, fun spell hspell => ?_⟩
  have hround : spells ⟨counted, started⟩ spell (.range started.length)
      = ⟨{ counted with fleet := (counted.fleet.carryOutAll due).2 }, ended⟩ := by
    rw [List.range_eq_range', List.length_map]
    exact hspells spell hspell
  have hrounds : rounds ⟨counted, started⟩ spell 1
      = ⟨{ counted with fleet := (counted.fleet.carryOutAll due).2 }, ended⟩ := by
    unfold rounds
    split
    · -- nothing is due
      rename_i hrest
      have hnone : started = [] := by
        refine List.eq_nil_iff_forall_not_mem.2 fun chore hmem => ?_
        have hdone := hrest chore hmem
        obtain ⟨rule, -, rfl⟩ := List.mem_map.1 hmem
        cases hdone
      rw [hnone] at hround ⊢
      exact hround
    · exact hround
  have htick : tick { station := s } today second = ⟨counted, started⟩ := rfl
  unfold Station.tickInRounds
  rw [htick, hrounds]
  dsimp only
  rw [hlength, hreckon]
  rfl

end Bustle

end ScanFleet
