import ScanFleet.Model.Assignment
import ScanFleet.Model.Device
import ScanFleet.Model.Instance
import ScanFleet.Model.Sighting
import ScanFleet.Proofs.Calendar.DateTexts

set_option autoImplicit false

/-! # Stored records are read back

A record is written as an object with all its fields, those at their defaults and those without a
value among them, and reading finds each field under its name (`Json.read_record`). So a record
survives when its fields do. A list may stand for the object (`Json.read_list`). Two kinds of fields
are written as texts: a date (`Date.ofText?_text`), and the kind of a job, which is told by its name and
by no other, if it can be read from a name at all (`JobKind.ofName?_eq_some_iff`). -/

namespace ScanFleet

/-! ## Records -/

/-- In an object with distinct names, every member is found under its name. -/
theorem Record.get?_of_mem {members : List (String × Json)} {member : String × Json}
    (hdistinct : (members.map Prod.fst).Nodup) (hmem : member ∈ members) :
    (⟨members, true⟩ : Record).get? member.1 = some member.2 := by
  rw [get?]
  induction members with
  | nil => cases hmem
  | cons first rest ih =>
    rw [List.map_cons, List.nodup_cons] at hdistinct
    rcases List.mem_cons.1 hmem with rfl | hrest
    · simp
    · have hother : first.1 ≠ member.1 := fun heq =>
        hdistinct.1 (List.mem_map.2 ⟨member, hrest, heq.symm⟩)
      rw [List.find?_cons_of_neg (by simpa using hother)]
      exact ih hdistinct.2 hrest

/-- An object with known names, none of them twice, is taken apart into its members. -/
theorem Json.record?_object {known : List String} {members : List (String × Json)}
    (hknown : ∀ member ∈ members, member.1 ∈ known) (hdistinct : (members.map Prod.fst).Nodup) :
    (object members).record? known = some ⟨members, true⟩ := by
  have hall : members.filter (fun member => known.contains member.1) = members :=
    List.filter_eq_self.2 fun member hmem => List.contains_iff_mem.2 (hknown member hmem)
  rw [record?]
  simp only [hall, if_pos hdistinct]

/-- An object with the names of a record is read as what its members give, each under its name. -/
theorem Json.read_record {α : Type} {j : Json} {known : List String}
    {members : List (String × Json)} {read : Record → Option α} {a : α}
    (hobject : j = .object members) (hnames : members.map Prod.fst = known)
    (hdistinct : known.Nodup)
    (hread : ∀ r : Record, (∀ member ∈ members, r.get? member.1 = some member.2) →
      read r = some a) :
    (j.record? known).bind read = some a := by
  subst hobject hnames
  rw [record?_object (fun _ hmem => List.mem_map_of_mem hmem) hdistinct]
  exact hread ⟨members, true⟩ fun _ => Record.get?_of_mem hdistinct

/-- A list is read as the object that gives its items the names of the record, in order. -/
theorem Json.read_list {α : Type} {known : List String} {read : Record → Option α}
    (hdistinct : known.Nodup) (hnamed : ∀ fields, read ⟨fields, false⟩ = read ⟨fields, true⟩)
    (items : List Json) :
    ((list items).record? known).bind read
      = if items.length ≤ known.length then ((object (known.zip items)).record? known).bind read
        else none := by
  have hnames : ((known.zip items).map Prod.fst).Sublist known := by
    rw [List.zip_eq_zip_take_min, List.map_fst_zip (by simp)]
    exact List.take_sublist _ known
  rw [record?_object (fun _ hmem => (List.of_mem_zip hmem).1) (hdistinct.sublist hnames)]
  show (if items.length ≤ known.length then some _ else none).bind read = _
  split
  · exact hnamed (known.zip items)
  · rfl

/-! ## Fields written as texts -/

instance : LawfulJsonForm Date := ⟨fun date => by
  show Date.ofText? (String.ofList date.text).toList = some date
  rw [String.toList_ofList, Date.ofText?_text]⟩

instance : NonNullForm Date := ⟨fun _ => nofun⟩

namespace JobKind

/-- The name of a kind that has one of its own is not that of a custom kind. -/
theorem afterLead_name_of_mem_builtin :
    ∀ kind ∈ builtin, afterLead customLead kind.name.toList = none := by
  decide

/-- A name is read as the one kind that can be read and has it. -/
theorem ofName?_eq_some_iff {name : String} {kind : JobKind} :
    ofName? name = some kind ↔ kind.isParsed = true ∧ kind.name = name := by
  unfold ofName?
  constructor
  · intro h
    split at h
    · rename_i found hfound
      obtain rfl := Option.some.inj h
      have hparsed : ∀ kind ∈ builtin, kind.isParsed = true := by decide
      exact ⟨hparsed found (List.mem_of_find?_eq_some hfound), by simpa using List.find?_some hfound⟩
    · split at h
      · rename_i hparsed
        obtain rfl := Option.some.inj h
        exact ⟨hparsed, rfl⟩
      · cases h
  · rintro ⟨hparsed, rfl⟩
    cases kind with
    | custom tag =>
      have hnone : (builtin.find? fun kind => kind.name == (custom tag).name) = none := by
        refine List.find?_eq_none.2 fun other hother hsame => ?_
        have hlead : afterLead customLead tag.toList = none := by
          rw [← show other.name = tag from beq_iff_eq.1 hsame]
          exact afterLead_name_of_mem_builtin other hother
        rw [isParsed, hlead] at hparsed
        cases hparsed
      rw [hnone]
      exact if_pos hparsed
    | _ => rfl

theorem eq_of_name {a b : JobKind} (ha : a.isParsed = true) (hb : b.isParsed = true)
    (h : a.name = b.name) : a = b :=
  Option.some.inj ((ofName?_eq_some_iff.2 ⟨ha, h⟩).symm.trans (ofName?_eq_some_iff.2 ⟨hb, rfl⟩))

theorem isParsed_of_ofJson? {j : Json} {kind : JobKind} (h : ofJson? j = some kind) :
    kind.isParsed = true := by
  cases j with
  | text name => exact (ofName?_eq_some_iff.1 h).1
  | _ => cases h

end JobKind

/-! ## Stored records -/

section Records

/-- Fields are read one after the other: what is left to read is looked at when it is reached. -/
@[local congr]
theorem bind_congr_left {α β : Type} {o o' : Option α} {f : α → Option β} (h : o = o') :
    o.bind f = o'.bind f :=
  congrArg (·.bind f) h

instance : LawfulJsonForm IvList := ⟨fun l => by
  show ((toJson l).record? _).bind _ = _
  refine Json.read_record rfl rfl (by simp) fun r hget => ?_
  simp only [List.forall_mem_cons] at hget
  simp [↓Option.bind_eq_bind, hget, Record.required]⟩

instance : LawfulJsonForm DeviceGroup := ⟨fun g => by
  show ((toJson g).record? _).bind _ = _
  refine Json.read_record rfl rfl (by simp) fun r hget => ?_
  simp only [List.forall_mem_cons] at hget
  simp [↓Option.bind_eq_bind, hget, Record.required, Record.withDefault]⟩

instance : LawfulJsonForm Assignment := ⟨fun a => by
  show ((toJson a).record? _).bind _ = _
  refine Json.read_record rfl rfl (by simp) fun r hget => ?_
  simp only [List.forall_mem_cons] at hget
  simp [↓Option.bind_eq_bind, hget, Record.required, Record.withDefault, Record.optional]⟩

instance : LawfulJsonForm JobSettings := ⟨fun s => by
  show ((toJson s).record? _).bind _ = _
  refine Json.read_record rfl rfl (by simp) fun r hget => ?_
  simp only [List.forall_mem_cons] at hget
  simp [↓Option.bind_eq_bind, hget, Record.withDefault, Record.optional]⟩

/-- An instance is read back if its kind is. -/
theorem Instance.ofJson?_toJson {i : Instance} (h : i.kind.isParsed = true) :
    ofJson? (toJson i) = some i := by
  have hkind : ofJson? (toJson i.kind) = some i.kind := JobKind.ofName?_eq_some_iff.2 ⟨h, rfl⟩
  show ((toJson i).record? _).bind _ = _
  refine Json.read_record rfl rfl (by simp) fun r hget => ?_
  simp only [List.forall_mem_cons] at hget
  simp [↓Option.bind_eq_bind, hget, hkind, Record.required, Record.withDefault]

/-- The kind of an instance that was read can be read. -/
theorem Instance.isParsed_of_ofJson? {j : Json} {i : Instance} (h : ofJson? j = some i) :
    i.kind.isParsed = true := by
  obtain ⟨r, -, hread⟩ := Option.bind_eq_some_iff.1 h
  obtain ⟨name, -, hread⟩ := Option.bind_eq_some_iff.1 hread
  obtain ⟨kind, hkind, hread⟩ := Option.bind_eq_some_iff.1 hread
  obtain ⟨settings, -, hread⟩ := Option.bind_eq_some_iff.1 hread
  obtain rfl := Option.some.inj hread
  obtain ⟨item, -, hitem⟩ := Option.bind_eq_some_iff.1 hkind
  exact JobKind.isParsed_of_ofJson? hitem

end Records

/-- A value is written as an object with the given names, from which it is read back. -/
def ReadsBack {α : Type} [JsonForm α] (names : List String) (a : α) : Prop :=
  ∃ members, toJson a = .object members ∧ members.map Prod.fst = names
    ∧ ofJson? (Json.object members) = some a

/-- The values of a type survive being written, under the given names, if they can be read at all. -/
structure SurvivesJson (α : Type) [JsonForm α] (names : List String) (readable : α → Prop) : Prop where
  /-- Every value that can be read survives. -/
  written (a : α) (h : readable a) : ReadsBack names a
  /-- What has been read from JSON survives, in whatever form it stood there. -/
  rewritten (j : Json) (a : α) (hread : ofJson? j = some a) : ReadsBack names a
  /-- A list stands for the object of its items under the names in order; it may stop early. -/
  listed (items : List Json) : (ofJson? (.list items) : Option α)
    = if items.length ≤ names.length then ofJson? (.object (names.zip items)) else none

theorem survivesJson {α : Type} [JsonForm α] {names : List String} {readable : α → Prop}
    {read : Record → Option α} (hdistinct : names.Nodup)
    (hwritten : ∀ a : α, ∃ members, toJson a = .object members ∧ members.map Prod.fst = names)
    (hread : ∀ j : Json, ofJson? j = (j.record? names).bind read)
    (hnamed : ∀ fields, read ⟨fields, false⟩ = read ⟨fields, true⟩)
    (hlawful : ∀ a, readable a → ofJson? (toJson a) = some a)
    (hreadable : ∀ (j : Json) (a : α), ofJson? j = some a → readable a) :
    SurvivesJson α names readable := by
  have hback (a : α) (h : readable a) : ReadsBack names a := by
    obtain ⟨members, hobject, hnames⟩ := hwritten a
    exact ⟨members, hobject, hnames, hobject ▸ hlawful a h⟩
  refine ⟨hback, fun j a hj => hback a (hreadable j a hj), fun items => ?_⟩
  rw [hread, hread]
  exact Json.read_list hdistinct hnamed items

/-- Instances of kinds that can be read, and all assignments, device groups and rankings, survive being
    written. A text is read as the kind of which it is the name, and no two kinds that can be read have
    one name. -/
theorem records_survive :
    SurvivesJson Instance ["name", "type", "data"] (fun i => i.kind.isParsed = true)
      ∧ SurvivesJson Assignment ["id", "instance_name", "source_instance_name", "device_uuid",
          "device_group_name", "time", "date", "enabled"] (fun _ => True)
      ∧ SurvivesJson DeviceGroup ["name", "devices"] (fun _ => True)
      ∧ SurvivesJson IvList ["name", "pokemon"] (fun _ => True)
      ∧ (∀ name kind, JobKind.ofName? name = some kind ↔ kind.isParsed = true ∧ kind.name = name)
      ∧ Function.Injective fun kind : { kind : JobKind // kind.isParsed = true } => kind.val.name := by
  refine ⟨?_, ?_, ?_, ?_, fun _ _ => JobKind.ofName?_eq_some_iff,
    fun a b h => Subtype.ext (JobKind.eq_of_name a.property b.property h)⟩
  · exact survivesJson (by decide) (fun _ => ⟨_, rfl, rfl⟩) (fun _ => rfl) (fun _ => rfl)
      (fun _ => Instance.ofJson?_toJson) fun _ _ => Instance.isParsed_of_ofJson?
  · exact survivesJson (by decide) (fun _ => ⟨_, rfl, rfl⟩) (fun _ => rfl) (fun _ => rfl)
      (fun _ _ => ofJson?_toJson _) fun _ _ _ => trivial
  · exact survivesJson (by decide) (fun _ => ⟨_, rfl, rfl⟩) (fun _ => rfl) (fun _ => rfl)
      (fun _ _ => ofJson?_toJson _) fun _ _ _ => trivial
  · exact survivesJson (by decide) (fun _ => ⟨_, rfl, rfl⟩) (fun _ => rfl) (fun _ => rfl)
      (fun _ _ => ofJson?_toJson _) fun _ _ _ => trivial

/-- A rule in array form that stops early, with a date in a year of five digits. -/
example :
    ofJson? (.list [.int 7, .text "night", .null, .text "d1", .null, .int 0, .text "+12024-02-29"])
      = some { id := 7, target := "night", device := some "d1",
               date := Date.ofText? "+12024-02-29".toList : Assignment } := by
  decide

end ScanFleet
