import ScanFleet.Proofs.Station.Completion
import ScanFleet.Proofs.Station.Errands
import ScanFleet.Proofs.Station.SideBySide
import ScanFleet.Proofs.Table

set_option autoImplicit false

/-! # Storage as a mirror while chores go on side by side

A device that sets out takes its row along as it is then, and the row is written after the device has
left its former job. In between another chore may move the device on, and write its own row before. Then
the row that is written last tells an instance that the device has left, and storage lags behind the
fleet (`Bustle.Lags`). So it does when a device is registered by a row that is no longer stored. Nothing
else parts the two. -/

namespace ScanFleet

/-! ## Rows to be written -/

/-- Storage changes from outside. -/
def Happening.restocks : Happening → Bool
  | restock _ _ _ => true
  | _ => false

/-- Right after the deed the fleet, but not storage, tells that a device works for an instance. -/
def Deed.Parts (s : Station) (uuid : String) (name : Option String) : Deed → Prop
  | write row => row.uuid = uuid ∧ row.instanceName ≠ name
    ∧ ∃ device, s.fleet.devices.get? uuid = some device ∧ device.instanceName = name
  | enlist row _ => row.uuid = uuid ∧ row.instanceName = name
    ∧ s.fleet.devices.has uuid = false ∧ ¬ s.fleet.storage.Backs row
  | _ => False

namespace Bustle

/-- A row of a device is to be written that tells an instance. -/
def Owes (b : Bustle) (uuid : String) (name : Option String) : Prop :=
  ∃ chore ∈ b.chores, ∃ row, .write row ∈ chore.deeds ∧ row.uuid = uuid ∧ row.instanceName = name

/-- Every device is stored with the instance that it works for, or such a row of it is to be written. -/
def Mirrored (b : Bustle) : Prop :=
  ∀ uuid device, b.station.fleet.devices.get? uuid = some device →
    b.station.fleet.storage.Backs device ∨ b.Owes uuid device.instanceName

/-- Storage comes to tell another instance of a device than the fleet, and nobody is going to write the
    one that the fleet tells. -/
def Lags (b : Bustle) : Happening → Prop
  | .turn k => ∃ deed rest moved uuid name, b.chores[k]? = some ⟨deed :: rest, moved⟩
    ∧ deed.Parts b.station uuid name ∧ ¬ (b.turn k).Owes uuid name
  | _ => False

variable {b : Bustle} {k : Nat} {uuid : String} {name : Option String}

theorem mirrored_iff_of_atRest (h : b.AtRest) : b.Mirrored ↔ b.station.fleet.Mirrored := by
  have hnone : ∀ uuid name, ¬ b.Owes uuid name := by
    rintro uuid name ⟨chore, hmem, row, hrow, -⟩
    rw [h chore hmem] at hrow
    cases hrow
  unfold Mirrored Fleet.Mirrored
  simp only [hnone, or_false]

theorem Owes.mono {c : Bustle} (h : b.Owes uuid name) (hchores : ∀ chore ∈ b.chores, chore ∈ c.chores) :
    c.Owes uuid name := by
  obtain ⟨chore, hmem, hrow⟩ := h
  exact ⟨chore, hchores chore hmem, hrow⟩

variable {deed : Deed} {rest : List Deed} {moved : Nat} {upshot : Upshot}

/-- Only the chore that writes a row no longer has to. -/
theorem Owes.turn (h : b.Owes uuid name) (hchore : b.chores[k]? = some ⟨deed :: rest, moved⟩)
    (hperform : deed.perform b.station = some upshot)
    (hdeed : ∀ row, deed = .write row → row.uuid ≠ uuid) : (b.turn k).Owes uuid name := by
  obtain ⟨chore, hmem, row, hrow, huuid, hname⟩ := h
  rw [turn_eq hchore hperform]
  by_cases hturn : chore = ⟨deed :: rest, moved⟩
  · subst hturn
    have hrest : .write row ∈ rest :=
      (List.mem_cons.1 hrow).resolve_left fun heq => hdeed row heq.symm huuid
    exact ⟨_, self_mem_set hchore _, row, List.mem_append_right _ hrest, huuid, hname⟩
  · exact ⟨chore, mem_set_of_ne hchore hmem hturn _, row, hrow, huuid, hname⟩

theorem owes_of_mem_next (hchore : b.chores[k]? = some ⟨deed :: rest, moved⟩)
    (hperform : deed.perform b.station = some upshot) {row : Device} (h : .write row ∈ upshot.next) :
    (b.turn k).Owes row.uuid row.instanceName := by
  rw [turn_eq hchore hperform]
  exact ⟨_, self_mem_set hchore _, row, List.mem_append_left _ h, rfl, rfl⟩

/-! ## Deeds -/

/-- Devices work on where they did, or their rows are to be written. -/
theorem Mirrored.of_owes {c : Bustle} (h : b.Mirrored)
    (hstorage : c.station.fleet.storage = b.station.fleet.storage)
    (howes : ∀ uuid name, b.Owes uuid name → c.Owes uuid name)
    (hdevices : ∀ uuid device, c.station.fleet.devices.get? uuid = some device →
      c.Owes uuid device.instanceName ∨ ∃ former, b.station.fleet.devices.get? uuid = some former
        ∧ former.instanceName = device.instanceName) : c.Mirrored := by
  intro uuid device hget
  obtain hlate | ⟨former, hformer, hname⟩ := hdevices uuid device hget
  · exact .inr hlate
  · have huuid : former.uuid = device.uuid := (Table.key_of_get? hformer).trans (Table.key_of_get? hget).symm
    rw [hstorage, ← hname]
    refine (h uuid former hformer).imp (fun ⟨row, hrow, htells⟩ => ?_) (howes uuid _)
    exact ⟨row, huuid ▸ hrow, htells.trans hname⟩

/-- Devices and rows stay as they are. -/
theorem Mirrored.of_eq {c : Bustle} (h : b.Mirrored)
    (hstorage : c.station.fleet.storage = b.station.fleet.storage)
    (hdevices : c.station.fleet.devices = b.station.fleet.devices)
    (howes : ∀ uuid name, b.Owes uuid name → c.Owes uuid name) : c.Mirrored := by
  refine h.of_owes hstorage howes fun uuid device hget => ?_
  rw [hdevices] at hget
  exact .inr ⟨device, hget, rfl⟩

/-- The devices of an instance go elsewhere, and their rows are to be written. -/
theorem Mirrored.of_withdraw {c : Bustle} (h : b.Mirrored) (old : String) (other : Option String)
    (hstorage : c.station.fleet.storage = b.station.fleet.storage)
    (howes : ∀ uuid name, b.Owes uuid name → c.Owes uuid name)
    (hrows : ∀ row ∈ b.station.fleet.shifted old other, c.Owes row.uuid row.instanceName)
    (hdevices : c.station.fleet.devices = (b.station.fleet.withdraw old other).devices) :
    c.Mirrored := by
  refine h.of_owes hstorage howes fun uuid device hget => ?_
  rw [hdevices] at hget
  obtain hmem | hsame := Fleet.mem_shifted_or_get? hget
  · obtain rfl : device.uuid = uuid := Table.key_of_get? hget
    exact .inl (hrows device hmem)
  · exact .inr ⟨device, hsame, rfl⟩

/-- No other deed than to write a row, or to register a device, parts storage from the fleet. -/
theorem Mirrored.turn (h : b.Mirrored) (hchore : b.chores[k]? = some ⟨deed :: rest, moved⟩)
    (hperform : deed.perform b.station = some upshot) (hwrite : ∀ row, deed ≠ .write row)
    (henlist : ∀ row target, deed ≠ .enlist row target) : (b.turn k).Mirrored := by
  have hstation : (b.turn k).station = upshot.station := by rw [turn_eq hchore hperform]
  have howes (uuid : String) (name : Option String) (howed : b.Owes uuid name) :
      (b.turn k).Owes uuid name :=
    howed.turn hchore hperform fun row heq => absurd heq (hwrite row)
  have hnext (row : Device) (hmem : .write row ∈ upshot.next) :
      (b.turn k).Owes row.uuid row.instanceName := owes_of_mem_next hchore hperform hmem
  cases Deed.outcome_of_perform hperform with
  | spares hspares =>
    exact h.of_eq (by rw [hstation, hspares.storage]) (by rw [hstation, hspares.devices]) howes
  | writes => exact absurd rfl (hwrite _)
  | enlists => exact absurd rfl (henlist _ _)
  | @setsOut m former hformer =>
    refine h.of_owes (by rw [hstation]) howes fun uuid device hget => ?_
    rw [hstation] at hget
    replace hget := (Table.get?_insert _ (former.assign (some m.target)) uuid).symm.trans hget
    split at hget
    · rename_i huuid
      obtain rfl := Option.some.inj hget
      have hlate := hnext (former.assign (some m.target)) (by simp)
      have huuid : (former.assign (some m.target)).uuid = uuid := huuid
      exact .inl (huuid ▸ hlate)
    · exact .inr ⟨device, hget, rfl⟩
  | @replaces definition old =>
    refine h.of_withdraw old (some definition.name) (by rw [hstation]; rfl) howes (fun row hmem => ?_)
      (by rw [hstation])
    exact hnext row (List.mem_append_left _ (List.mem_map_of_mem hmem))
  | @removes old =>
    refine h.of_withdraw old none (by rw [hstation]; rfl) howes (fun row hmem => ?_) (by rw [hstation])
    exact hnext row (List.mem_append_left _ (List.mem_map_of_mem hmem))
  | @drops other =>
    refine h.of_owes (by rw [hstation]) howes fun uuid device hget => .inr ⟨device, ?_, rfl⟩
    rw [hstation] at hget
    replace hget := (Table.get?_erase _ other uuid).symm.trans hget
    split at hget
    · cases hget
    · exact hget
  | @locates other place former seen hformer huuid hname =>
    refine h.of_owes (by rw [hstation]) howes fun uuid device hget => .inr ?_
    rw [hstation] at hget
    replace hget := (Table.get?_insert _ seen uuid).symm.trans hget
    split at hget
    · rename_i hsame
      obtain rfl := Option.some.inj hget
      obtain rfl : other = uuid := huuid.symm.trans hsame
      exact ⟨former, hformer, hname.symm⟩
    · exact ⟨device, hget, rfl⟩

/-- A row that is written parts storage from the fleet exactly if it tells another instance and no other
    row is to follow. -/
theorem mirrored_write_iff {row : Device} (h : b.Mirrored) (hwrites : b.station.fleet.storage.Writable)
    (hchore : b.chores[k]? = some ⟨.write row :: rest, moved⟩) :
    (b.turn k).Mirrored ↔ ¬ b.Lags (.turn k) := by
  have hperform : Deed.perform b.station (.write row) = some { station :=
      { b.station with fleet := { b.station.fleet with storage := b.station.fleet.storage.file row } } } := by
    simp only [Deed.perform, hwrites.write_eq row]
  have hdevices : (b.turn k).station.fleet.devices = b.station.fleet.devices := by
    rw [turn_eq hchore hperform]
  have hstorage : (b.turn k).station.fleet.storage = b.station.fleet.storage.file row := by
    rw [turn_eq hchore hperform]
  constructor
  · rintro hafter ⟨deed, left, ended, uuid, name, hturn, hparts, hnone⟩
    obtain ⟨⟨rfl, -⟩, -⟩ : (.write row = deed ∧ rest = left) ∧ moved = ended := by
      simpa using hchore.symm.trans hturn
    obtain ⟨rfl, hother, device, hget, rfl⟩ := hparts
    have huuid : row.uuid = device.uuid := (Table.key_of_get? hget).symm
    obtain ⟨stored, hstored, htells⟩ | howed := hafter row.uuid device (by rwa [hdevices])
    · rw [hstorage, Storage.get?_file, if_pos huuid] at hstored
      obtain rfl := Option.some.inj hstored
      exact hother htells
    · exact hnone howed
  · intro hnot uuid device hget
    rw [hdevices] at hget
    rw [hstorage]
    obtain rfl : device.uuid = uuid := Table.key_of_get? hget
    by_cases huuid : row.uuid = device.uuid
    · by_cases hname : row.instanceName = device.instanceName
      · exact .inl (Storage.backs_file (fun _ => hname) (.inl huuid))
      · right
        by_contra hnone
        exact hnot ⟨_, _, _, device.uuid, device.instanceName, hchore, ⟨huuid, hname, device, hget, rfl⟩,
          hnone⟩
    · refine (h device.uuid device hget).imp (fun hbacks => ?_) fun howed => ?_
      · exact Storage.backs_file (fun hsame => absurd hsame huuid) (.inr hbacks)
      · refine howed.turn hchore hperform fun other heq => ?_
        rwa [← Deed.write.inj heq]

/-- A device that is registered parts storage from the fleet exactly if the row is no longer stored and is
    not to be written. -/
theorem mirrored_enlist_iff {row : Device} {target : String} (h : b.Mirrored)
    (hchore : b.chores[k]? = some ⟨.enlist row target :: rest, moved⟩) :
    (b.turn k).Mirrored ↔ ¬ b.Lags (.turn k) := by
  have hperform : Deed.perform b.station (.enlist row target) = some _ := rfl
  have hdevices : (b.turn k).station.fleet.devices = if b.station.fleet.devices.has row.uuid
      then b.station.fleet.devices else b.station.fleet.devices.insert row := by
    rw [turn_eq hchore hperform]
  have hstorage : (b.turn k).station.fleet.storage = b.station.fleet.storage := by
    rw [turn_eq hchore hperform]
  have howes (uuid : String) (name : Option String) (howed : b.Owes uuid name) :
      (b.turn k).Owes uuid name := howed.turn hchore hperform nofun
  -- if the fleet knows the device by now, nothing happens
  cases hknown : b.station.fleet.devices.has row.uuid with
  | true =>
    rw [hknown, if_pos rfl] at hdevices
    refine iff_of_true (h.of_eq hstorage hdevices howes) ?_
    · rintro ⟨deed, left, ended, uuid, name, hturn, hparts, -⟩
      obtain ⟨⟨rfl, -⟩, -⟩ : (.enlist row target = deed ∧ rest = left) ∧ moved = ended := by
        simpa using hchore.symm.trans hturn
      obtain ⟨rfl, -, hunknown, -⟩ := hparts
      rw [hknown] at hunknown
      cases hunknown
  | false =>
    rw [hknown, if_neg Bool.false_ne_true] at hdevices
    constructor
    · rintro hafter ⟨deed, left, ended, uuid, name, hturn, hparts, hnone⟩
      obtain ⟨⟨rfl, -⟩, -⟩ : (.enlist row target = deed ∧ rest = left) ∧ moved = ended := by
        simpa using hchore.symm.trans hturn
      obtain ⟨rfl, rfl, -, hunbacked⟩ := hparts
      have hget : (b.turn k).station.fleet.devices.get? row.uuid = some row := by
        rw [hdevices]
        exact Table.get?_insert_self _ row
      have hbacked := hafter row.uuid row hget
      rw [hstorage] at hbacked
      exact hbacked.elim hunbacked hnone
    · intro hnot uuid device hget
      rw [hdevices] at hget
      rw [hstorage]
      replace hget := (Table.get?_insert _ row uuid).symm.trans hget
      split at hget
      · rename_i huuid
        have huuid : row.uuid = uuid := huuid
        obtain rfl := Option.some.inj hget
        subst huuid
        by_contra hneither
        obtain ⟨hunbacked, hnone⟩ := not_or.1 hneither
        exact hnot ⟨_, _, _, row.uuid, row.instanceName, hchore, ⟨rfl, rfl, hknown, hunbacked⟩, hnone⟩
      · exact (h uuid device hget).imp id (howes uuid _)

theorem mirrored_turn_iff (h : b.Mirrored) (hwrites : b.station.fleet.storage.Writable) (k : Nat) :
    (b.turn k).Mirrored ↔ ¬ b.Lags (.turn k) := by
  by_cases hwrite : ∃ row rest moved, b.chores[k]? = some ⟨.write row :: rest, moved⟩
  · obtain ⟨row, rest, moved, hchore⟩ := hwrite
    exact mirrored_write_iff h hwrites hchore
  by_cases henlist : ∃ row target rest moved, b.chores[k]? = some ⟨.enlist row target :: rest, moved⟩
  · obtain ⟨row, target, rest, moved, hchore⟩ := henlist
    exact mirrored_enlist_iff h hchore
  · refine iff_of_true ?_ ?_
    · obtain heq | ⟨deed, rest, moved, upshot, hchore, hperform, -⟩ := b.turn_cases k
      · rwa [heq]
      · refine h.turn hchore hperform (fun row heq => hwrite ⟨row, rest, moved, heq ▸ hchore⟩)
          fun row target heq => henlist ⟨row, target, rest, moved, heq ▸ hchore⟩
    · rintro ⟨deed, rest, moved, uuid, name, hchore, hparts, -⟩
      cases deed with
      | write row => exact hwrite ⟨row, rest, moved, hchore⟩
      | enlist row target => exact henlist ⟨row, target, rest, moved, hchore⟩
      | _ => exact hparts

end Bustle

/-! ## Rows in hand -/

namespace Deed

/-- The deed changes which instance the fleet or storage tells of a device. -/
def Touches (s : Station) (uuid : String) : Deed → Prop
  | enlist row _ | write row => row.uuid = uuid
  | setOut m => m.uuid = uuid
  | replace _ old => s.fleet.post? uuid = some old
  | remove name => s.fleet.post? uuid = some name
  | drop other => other = uuid
  | _ => False

/-- A row that is to be written tells the instance that its device works for, and one that is to be
    registered is stored. -/
def InDate (s : Station) : Deed → Prop
  | write row => ∀ device, s.fleet.devices.get? row.uuid = some device →
    row.instanceName = device.instanceName
  | enlist row _ => s.fleet.devices.has row.uuid = false → s.fleet.storage.Backs row
  | _ => True

variable {s : Station} {deed other : Deed} {upshot : Upshot}

theorem inDate_of_row?_eq_none (h : deed.row? = none) : deed.InDate s := by
  cases deed with
  | write row => cases h
  | enlist row target => cases h
  | _ => trivial

theorem InDate.not_parts (h : deed.InDate s) (uuid : String) (name : Option String) :
    ¬ deed.Parts s uuid name := by
  cases deed with
  | write row =>
    rintro ⟨rfl, hother, device, hget, rfl⟩
    exact hother (h device hget)
  | enlist row target =>
    rintro ⟨rfl, -, hunknown, hunbacked⟩
    exact hunbacked (h hunknown)
  | _ => exact id

theorem row?_opening (instruction : Instruction) : instruction.opening.row? = none := by
  cases instruction with
  | _ => rfl

/-- A row that is taken in hand is in date. -/
theorem inDate_of_mem_next (hperform : deed.perform s = some upshot) (hmem : other ∈ upshot.next) :
    other.InDate upshot.station := by
  cases outcome_of_perform hperform with
  | spares hspares =>
    cases other with
    | write row => exact absurd hmem (hspares.write_not_mem row)
    | enlist row target =>
      intro _
      refine ⟨row, ?_, rfl⟩
      rw [hspares.storage]
      exact hspares.stored row target hmem
    | _ => trivial
  | enlists =>
    obtain rfl := List.mem_singleton.1 hmem
    trivial
  | @setsOut m former hformer =>
    rcases List.mem_append.1 hmem with hmem | hmem
    · obtain ⟨name, rfl⟩ := exists_leave_of_mem_leaving hmem
      trivial
    · simp only [List.mem_cons, List.not_mem_nil, or_false] at hmem
      obtain rfl | rfl := hmem
      · intro device hget
        have hset := Table.get?_insert_self s.fleet.devices (former.assign (some m.target))
        rw [Option.some.inj (hset.symm.trans hget)]
      · trivial
  | writes => cases hmem
  | replaces =>
    rcases List.mem_append.1 hmem with hmem | hmem
    · obtain ⟨row, hrow, rfl⟩ := List.mem_map.1 hmem
      intro device hget
      rw [Option.some.inj ((Fleet.get?_withdraw_of_mem_shifted hrow).symm.trans hget)]
    · obtain rfl := List.mem_singleton.1 hmem
      trivial
  | removes =>
    rcases List.mem_append.1 hmem with hmem | hmem
    · obtain ⟨row, hrow, rfl⟩ := List.mem_map.1 hmem
      intro device hget
      rw [Option.some.inj ((Fleet.get?_withdraw_of_mem_shifted hrow).symm.trans hget)]
    · simp only [List.mem_cons, List.not_mem_nil, or_false] at hmem
      obtain rfl | rfl := hmem
      · trivial
      · trivial
  | drops =>
    rcases List.mem_append.1 hmem with hmem | hmem
    · obtain ⟨name, rfl⟩ := exists_leave_of_mem_leaving hmem
      trivial
    · obtain rfl := List.mem_singleton.1 hmem
      trivial
  | locates => cases hmem

/-- Writes are carried out after every deed. -/
theorem writable_of_perform (h : s.fleet.storage.Writable) (hperform : deed.perform s = some upshot) :
    upshot.station.fleet.storage.Writable := by
  cases outcome_of_perform hperform with
  | spares hspares => rwa [hspares.storage]
  | @writes row storage hwrite =>
    obtain rfl := Write.done.inj ((h.write_eq row).symm.trans hwrite)
    exact h.file row
  | _ => exact h

/-- Of a device that is not touched the fleet and storage tell the same instance as before. -/
theorem same_of_not_touches (hwrites : s.fleet.storage.Writable) (hperform : deed.perform s = some upshot)
    {uuid : String} (h : ¬ deed.Touches s uuid) :
    (upshot.station.fleet.devices.get? uuid).map (·.instanceName)
        = (s.fleet.devices.get? uuid).map (·.instanceName)
      ∧ upshot.station.fleet.storage.tables.devices.get? uuid = s.fleet.storage.tables.devices.get? uuid := by
  cases outcome_of_perform hperform with
  | spares hspares =>
    rw [hspares.devices, hspares.storage]
    exact ⟨rfl, rfl⟩
  | @enlists row target =>
    exact ⟨congrArg _ ((Table.get?_insert _ row uuid).trans (if_neg h)), rfl⟩
  | @setsOut m former hformer =>
    have huuid : former.uuid = m.uuid := Table.key_of_get? hformer
    have hget := Table.get?_insert s.fleet.devices (former.assign (some m.target)) uuid
    exact ⟨congrArg _ (hget.trans (if_neg fun hsame => h (huuid.symm.trans hsame))), rfl⟩
  | @writes row storage hwrite =>
    obtain rfl := Write.done.inj ((hwrites.write_eq row).symm.trans hwrite)
    exact ⟨rfl, (Storage.get?_file _ row uuid).trans (if_neg h)⟩
  | replaces => exact ⟨congrArg _ (Fleet.get?_withdraw_of_ne h), rfl⟩
  | removes => exact ⟨congrArg _ (Fleet.get?_withdraw_of_ne h), rfl⟩
  | @drops other =>
    exact ⟨congrArg _ ((Table.get?_erase s.fleet.devices other uuid).trans (if_neg h)), rfl⟩
  | @locates other place former seen hformer huuid hname =>
    refine ⟨?_, rfl⟩
    dsimp only
    rw [Table.get?_insert]
    split
    · rename_i hsame
      obtain rfl : other = uuid := huuid.symm.trans hsame
      rw [hformer, Option.map_some, Option.map_some, hname]
    · rfl

theorem InDate.of_eq {t : Station} (h : deed.InDate s) (hdevices : t.fleet.devices = s.fleet.devices)
    (hstorage : t.fleet.storage = s.fleet.storage) : deed.InDate t := by
  cases deed with
  | write row =>
    show ∀ device, t.fleet.devices.get? row.uuid = some device → _
    rw [hdevices]
    exact h
  | enlist row target =>
    show t.fleet.devices.has row.uuid = false → t.fleet.storage.Backs row
    rw [hdevices, hstorage]
    exact h
  | _ => trivial

/-- What a deed has in hand stays in date as long as the device is not touched. -/
theorem InDate.of_perform (h : other.InDate s) (hwrites : s.fleet.storage.Writable)
    (hperform : deed.perform s = some upshot)
    (hrow : ∀ row, other.row? = some row → ¬ deed.Touches s row.uuid) : other.InDate upshot.station := by
  cases other with
  | write row =>
    obtain ⟨hdevices, -⟩ := same_of_not_touches hwrites hperform (hrow row rfl)
    intro device hget
    rw [hget, Option.map_some] at hdevices
    obtain ⟨former, hformer, hname⟩ := Option.map_eq_some_iff.1 hdevices.symm
    exact (h former hformer).trans hname
  | enlist row target =>
    obtain ⟨hdevices, hstorage⟩ := same_of_not_touches hwrites hperform (hrow row rfl)
    intro hunknown
    have hbefore : s.fleet.devices.has row.uuid = false := by
      rw [← hunknown, Table.has, Table.has, ← Option.isSome_map, ← hdevices, Option.isSome_map]
    obtain ⟨stored, hstored, hname⟩ := h hbefore
    exact ⟨stored, hstorage.trans hstored, hname⟩
  | _ => trivial

end Deed

namespace Bustle

/-- A device is touched while someone has a row of it in hand. -/
def Overtakes (b : Bustle) : Happening → Prop
  | .turn k => ∃ deed rest moved uuid, b.chores[k]? = some ⟨deed :: rest, moved⟩
    ∧ deed.Touches b.station uuid
    ∧ ∃ chore ∈ b.chores.set k ⟨rest, moved⟩, ∃ other ∈ chore.deeds, ∃ row,
      other.row? = some row ∧ row.uuid = uuid
  | _ => False

/-- All that is in hand is in date. -/
def InDate (b : Bustle) : Prop := ∀ chore ∈ b.chores, ∀ deed ∈ chore.deeds, deed.InDate b.station

variable {b : Bustle} {k : Nat}

theorem InDate.not_lags (h : b.InDate) (happening : Happening) : ¬ b.Lags happening := by
  cases happening with
  | turn k =>
    rintro ⟨deed, rest, moved, uuid, name, hchore, hparts, -⟩
    exact (h _ (List.mem_of_getElem? hchore) deed List.mem_cons_self).not_parts uuid name hparts
  | _ => exact id

theorem InDate.turn (h : b.InDate) (hwrites : b.station.fleet.storage.Writable)
    (hnot : ¬ b.Overtakes (.turn k)) : (b.turn k).InDate := by
  obtain heq | ⟨deed, rest, moved, upshot, hchore, hperform, heq⟩ := b.turn_cases k
  · rwa [heq]
  -- what the others have in hand, and what the chore has in hand for later
  have hkept : ∀ chore ∈ b.chores.set k ⟨rest, moved⟩, ∀ other ∈ chore.deeds,
      other.InDate upshot.station := by
    intro chore hmem other hother
    have hbefore : other.InDate b.station := by
      rcases List.mem_or_eq_of_mem_set hmem with hold | rfl
      · exact h chore hold other hother
      · exact h _ (List.mem_of_getElem? hchore) other (List.mem_cons_of_mem deed hother)
    refine hbefore.of_perform hwrites hperform fun row hrow htouches => ?_
    exact hnot ⟨deed, rest, moved, row.uuid, hchore, htouches, chore, hmem, other, hother, row, hrow, rfl⟩
  rw [heq]
  intro chore hmem other hother
  by_cases hturn : chore = ⟨upshot.next ++ rest, moved + upshot.moved⟩
  · subst hturn
    rcases List.mem_append.1 hother with hnext | hrest
    · exact Deed.inDate_of_mem_next hperform hnext
    · exact hkept _ (self_mem_set hchore _) other hrest
  · exact hkept chore (mem_set_of_mem_set hmem hturn _) other hother

end Bustle

/-! ## Runs -/

namespace Bustle

variable {b : Bustle}

theorem writable_undergo (h : b.station.fleet.storage.Writable) {happening : Happening}
    (hinside : happening.restocks = false) : (b.undergo happening).station.fleet.storage.Writable := by
  cases happening with
  | turn k =>
    obtain heq | ⟨deed, rest, moved, upshot, hchore, hperform, heq⟩ := b.turn_cases k
    · show (b.turn k).station.fleet.storage.Writable
      rwa [heq]
    · show (b.turn k).station.fleet.storage.Writable
      rw [heq]
      exact Deed.writable_of_perform h hperform
  | tick today second =>
    obtain ⟨schedule, metrics, heq⟩ := b.tick_eq today second
    show (b.tick today second).station.fleet.storage.Writable
    rwa [heq]
  | tell instruction => exact h
  | meanwhile now localOffset listener schedule => exact h
  | restock tables down lookups => cases hinside

theorem mirrored_undergo_iff (h : b.Mirrored) (hwrites : b.station.fleet.storage.Writable)
    {happening : Happening} (hinside : happening.restocks = false) :
    (b.undergo happening).Mirrored ↔ ¬ b.Lags happening := by
  cases happening with
  | turn k => exact mirrored_turn_iff h hwrites k
  | tell instruction =>
    exact iff_of_true (h.of_eq rfl rfl fun _ _ howed => howed.mono fun _ => List.mem_append_left _) id
  | tick today second =>
    obtain ⟨schedule, metrics, heq⟩ := b.tick_eq today second
    refine iff_of_true ?_ id
    show (b.tick today second).Mirrored
    rw [heq]
    exact h.of_eq rfl rfl fun _ _ howed => howed.mono fun _ => List.mem_append_left _
  | meanwhile now localOffset listener schedule => exact iff_of_true (h.of_eq rfl rfl fun _ _ => id) id
  | restock tables down lookups => cases hinside

theorem InDate.undergo (h : b.InDate) (hwrites : b.station.fleet.storage.Writable) {happening : Happening}
    (hinside : happening.restocks = false) (hnot : ¬ b.Overtakes happening) :
    (b.undergo happening).InDate := by
  cases happening with
  | turn k => exact h.turn hwrites hnot
  | tell instruction =>
    intro chore hmem deed hdeed
    rcases List.mem_append.1 hmem with hold | hnew
    · exact h chore hold deed hdeed
    · obtain rfl := List.mem_singleton.1 hnew
      obtain rfl := List.mem_singleton.1 hdeed
      exact Deed.inDate_of_row?_eq_none (Deed.row?_opening instruction)
  | tick today second =>
    obtain ⟨schedule, metrics, heq⟩ := b.tick_eq today second
    show (b.tick today second).InDate
    rw [heq]
    intro chore hmem deed hdeed
    rcases List.mem_append.1 hmem with hold | hnew
    · exact (h chore hold deed hdeed).of_eq rfl rfl
    · obtain ⟨rule, -, rfl⟩ := List.mem_map.1 hnew
      obtain rfl := List.mem_singleton.1 hdeed
      trivial
  | meanwhile now localOffset listener schedule =>
    exact fun chore hmem deed hdeed => (h chore hmem deed hdeed).of_eq rfl rfl
  | restock tables down lookups => cases hinside

theorem inDate_of_station (s : Station) : (Bustle.mk s []).InDate := nofun

theorem mirrored_of_station {s : Station} (h : s.fleet.Mirrored) : (Bustle.mk s []).Mirrored :=
  fun uuid device hget => .inl (h uuid device hget)

/-- A station without devices is started, and its writes are carried out. Then chores go on side by side,
    and every device is stored with the instance that it works for, or is about to be, exactly when
    storage never comes to lag behind. It does not as long as no device is touched while someone has a row
    of it in hand. When all chores are done, every device is stored with the instance that it works
    for. -/
theorem mirrored_states_iff (s : Station) (hnew : s.fleet.devices = .empty)
    (hwrites : s.fleet.storage.Writable) (happenings : List Happening)
    (hinside : ∀ happening ∈ happenings, happening.restocks = false) :
    ((∀ t ∈ (Bustle.mk (s.step .start) []).states happenings, t.Mirrored)
        ↔ (Bustle.mk (s.step .start) []).Never Lags happenings)
      ∧ ((Bustle.mk (s.step .start) []).Never Overtakes happenings
        → (Bustle.mk (s.step .start) []).Never Lags happenings)
      ∧ ∀ t : Bustle, t.AtRest → (t.Mirrored ↔ t.station.fleet.Mirrored) := by
  obtain ⟨hmirrored, hwritable⟩ : (s.step .start).fleet.InSync :=
    Station.inSync_step (Fleet.inSync_of_no_devices hnew hwrites) trivial
  refine ⟨?_, ?_, fun _ => mirrored_iff_of_atRest⟩
  · have hall := forall_states (fun t => t.station.fleet.storage.Writable) (fun h => h.restocks = false)
      (fun _ _ hinside hwrites => writable_undergo hwrites hinside) (b := ⟨s.step .start, []⟩) hwritable
      hinside
    rw [← states_iff_never (fun t => t.Mirrored ∧ t.station.fleet.storage.Writable)
      (fun h => h.restocks = false) ?_ ⟨mirrored_of_station hmirrored, hwritable⟩ hinside]
    · exact forall₂_congr fun t ht => ⟨fun h => ⟨h, hall t ht⟩, And.left⟩
    · rintro b happening hinside ⟨h, hwrites⟩
      rw [← mirrored_undergo_iff h hwrites hinside]
      exact and_iff_left (writable_undergo hwrites hinside)
  · refine never_of_never (fun t => t.InDate ∧ t.station.fleet.storage.Writable)
      (fun h => h.restocks = false) ?_ ⟨inDate_of_station _, hwritable⟩ hinside
    rintro b happening hinside ⟨h, hwrites⟩ hnot
    exact ⟨⟨h.undergo hwrites hinside hnot, writable_undergo hwrites hinside⟩, h.not_lags happening⟩

/-- Two circles. At some time of the day two rules are due that send the device of the first one to the
    second, and back. -/
def crossing : Station :=
  { Station.twoCircles with
    schedule := {
      rules := [{ id := 1, target := "B", device := some "dev-1", time := 100 },
        { id := 2, target := "A", device := some "dev-1", time := 100 }]
      watermark := some ⟨Station.epoch, 50⟩ } }

/-- The device leaves for the second circle. Before its row is written, it is sent back, and that row is
    written first. -/
def thereAndBack : List Happening :=
  [.tick Station.epoch 150, .turn 0, .turn 0, .turn 0, .turn 0, .turn 0, .turn 0,
    .turn 1, .turn 1, .turn 1, .turn 1, .turn 1, .turn 1, .turn 1, .turn 1, .turn 0, .turn 0]

theorem mirrored_crossing :
    crossing.fleet.devices = .empty ∧ crossing.fleet.storage.Writable
      ∧ (∀ happening ∈ thereAndBack, happening.restocks = false)
      ∧ ((∀ t ∈ (Bustle.mk (crossing.step .start) []).states thereAndBack, t.Mirrored)
        ↔ (Bustle.mk (crossing.step .start) []).Never Lags thereAndBack)
      ∧ ((Bustle.mk (crossing.step .start) []).Never Overtakes thereAndBack
        → (Bustle.mk (crossing.step .start) []).Never Lags thereAndBack)
      ∧ ∀ t : Bustle, t.AtRest → (t.Mirrored ↔ t.station.fleet.Mirrored) := by
  have hinside : ∀ happening ∈ thereAndBack, happening.restocks = false := by decide
  exact ⟨rfl, ⟨fun _ => rfl, rfl⟩, hinside,
    mirrored_states_iff crossing rfl ⟨fun _ => rfl, rfl⟩ thereAndBack hinside⟩

/-- When all is done the device works for the first circle, and is stored with the second. -/
theorem unmirrored_by_lateWrite :
    crossing.fleet.devices = .empty ∧ crossing.fleet.storage.Writable
      ∧ ∃ t ∈ (Bustle.mk (crossing.step .start) []).states thereAndBack,
        t.AtRest ∧ t.station.fleet.post? "dev-1" = some "A"
          ∧ (t.station.fleet.storage.tables.devices.get? "dev-1").bind (·.instanceName) = some "B"
          ∧ ¬ t.station.fleet.Mirrored := by
  let last : Bustle := thereAndBack.foldl undergo ⟨crossing.step .start, []⟩
  have hrest : last.AtRest := by decide +kernel
  have hpost : last.station.fleet.post? "dev-1" = some "A" := by decide +kernel
  have hstored : (last.station.fleet.storage.tables.devices.get? "dev-1").bind (·.instanceName)
      = some "B" := by decide +kernel
  refine ⟨rfl, ⟨fun _ => rfl, rfl⟩, last, last_mem_states _ thereAndBack, hrest, hpost, hstored,
    fun hmirrored => ?_⟩
  rw [hmirrored.stored_post hpost] at hstored
  exact absurd (Option.some.inj hstored) (by decide)

end Bustle

end ScanFleet
