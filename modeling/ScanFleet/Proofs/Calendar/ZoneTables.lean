import ScanFleet.Calendar.Zone
import ScanFleet.Proofs.Table
import ScanFleet.Proofs.Text.Numerals
import ScanFleet.Proofs.Text.Parts

set_option autoImplicit false

/-! # Reading a table of zones

An entry between commas gives a zone its offset, or it is malformed and counts for nothing
(`IsEntry`). Of several entries for one zone the last counts. So a table can be written in any order and
with any blanks around its parts (`Writes`), and malformed entries can be put anywhere: it is read back
all the same. -/

namespace ScanFleet

namespace ZoneTable

/-! ## Entries -/

/-- The entry gives the zone an offset. Cut at its first equals sign it is the name of the zone and an
    integer of 32 bits, with any blanks around them; the name is not empty. -/
def IsEntry (entry : List Char) (name : String) (seconds : Int) : Prop :=
  ∃ front back, trim entry = front ++ '=' :: back ∧ '=' ∉ front ∧ trim front = name.toList
    ∧ name ≠ "" ∧ IsInteger (trim back) seconds ∧ IsInt32 seconds

/-- The last of the entries that give the zone an offset gives it this one. -/
def LastEntry (entries : List (List Char)) (name : String) (seconds : Int) : Prop :=
  ∃ earlier entry later, entries = earlier ++ entry :: later ∧ IsEntry entry name seconds
    ∧ ∀ other ∈ later, ∀ offset, ¬ IsEntry other name offset

variable {entry : List Char} {name : String} {seconds : Int}

theorem readEntry?_eq_some_iff :
    readEntry? entry = some (name, seconds) ↔ IsEntry entry name seconds := by
  constructor
  · intro hread
    obtain ⟨⟨front, back⟩, hcut, hread⟩ := Option.bind_eq_some_iff.1 hread
    obtain ⟨offset, hoffset, hread⟩ := Option.bind_eq_some_iff.1 hread
    obtain ⟨hname, hpair⟩ := Option.ite_none_left_eq_some.1 hread
    obtain ⟨rfl, rfl⟩ := Prod.mk.inj (Option.some.inj hpair)
    obtain ⟨hsplit, hfirst⟩ := cutAt_eq_some_iff.1 hcut
    obtain ⟨hinteger, hrange⟩ := readInt32?_eq_some_iff.1 hoffset
    refine ⟨front, back, hsplit, hfirst, String.toList_ofList.symm, fun hempty => hname ?_, hinteger,
      hrange⟩
    rw [← String.toList_ofList (l := trim front), hempty]
    rfl
  · rintro ⟨front, back, hsplit, hfirst, hname, hne, hinteger, hrange⟩
    refine Option.bind_eq_some_iff.2 ⟨(front, back), cutAt_eq_some_iff.2 ⟨hsplit, hfirst⟩, ?_⟩
    refine Option.bind_eq_some_iff.2
      ⟨seconds, readInt32?_eq_some_iff.2 ⟨hinteger, hrange⟩, ?_⟩
    refine Option.ite_none_left_eq_some.2 ⟨fun hempty => hne ?_, ?_⟩
    · rw [hname] at hempty
      exact String.toList_eq_nil_iff.1 hempty
    · rw [hname, String.ofList_toList]

theorem readEntry?_eq_none_iff :
    readEntry? entry = none ↔ ∀ name seconds, ¬ IsEntry entry name seconds := by
  constructor
  · intro hnone name seconds h
    rw [readEntry?_eq_some_iff.2 h] at hnone
    cases hnone
  · intro hmalformed
    cases hread : readEntry? entry with
    | none => rfl
    | some zone => exact absurd (readEntry?_eq_some_iff.1 hread) (hmalformed zone.1 zone.2)

/-- An entry that is empty, or blank, is malformed. -/
theorem not_isEntry_of_blank (h : ∀ c ∈ entry, isBlank c = true) (name : String) (seconds : Int) :
    ¬ IsEntry entry name seconds := by
  rintro ⟨front, back, hsplit, -⟩
  rw [trim_eq_nil h] at hsplit
  exact absurd hsplit (by simp)

/-! ## Tables -/

theorem read_eq_ofList (text : List Char) :
    read text = .ofList ((text.splitOn ',').filterMap readEntry?) := by
  rw [read, partsAt_eq_splitOn]

/-- The offset of a zone is the one that its last entry gives. -/
theorem get?_read_eq_some_iff {text : List Char} :
    (read text).get? name = some (name, seconds) ↔ LastEntry (text.splitOn ',') name seconds := by
  rw [read_eq_ofList, Table.get?_ofList_eq_some_iff]
  generalize text.splitOn ',' = entries
  constructor
  · rintro ⟨before, after, hzones, -, hafter⟩
    obtain ⟨front, back, rfl, -, hback⟩ := List.filterMap_eq_append_iff.1 hzones
    obtain ⟨skipped, entry, later, rfl, -, hentry, rfl⟩ := List.filterMap_eq_cons_iff.1 hback
    refine ⟨front ++ skipped, entry, later, (List.append_assoc ..).symm,
      readEntry?_eq_some_iff.1 hentry, fun other hother offset h => ?_⟩
    exact hafter (name, offset) (List.mem_filterMap.2 ⟨other, hother, readEntry?_eq_some_iff.2 h⟩) rfl
  · rintro ⟨earlier, entry, later, rfl, hentry, hlater⟩
    refine ⟨earlier.filterMap readEntry?, later.filterMap readEntry?, ?_, rfl, ?_⟩
    · rw [List.filterMap_append, List.filterMap_cons_some (readEntry?_eq_some_iff.2 hentry)]
    · rintro ⟨zone, offset⟩ hzone rfl
      obtain ⟨other, hother, hread⟩ := List.mem_filterMap.1 hzone
      exact hlater other hother offset (readEntry?_eq_some_iff.1 hread)

/-- Entries without commas are what is read when they are joined by commas. -/
theorem read_intercalate {entries : List (List Char)} (h : ∀ entry ∈ entries, ',' ∉ entry) :
    read ([','].intercalate entries) = .ofList (entries.filterMap readEntry?) := by
  cases entries with
  | nil => rfl
  | cons first rest => rw [read_eq_ofList, List.splitOn_intercalate ',' h nofun]

/-! ## Writing -/

/-- The entry writes the zone: name, equals sign and offset, with any blanks around them. -/
def Writes (zone : String × Int) (entry : List Char) : Prop :=
  ∃ a b c d : List Char, (∀ x ∈ a ++ b ++ c ++ d, isBlank x = true)
    ∧ entry = a ++ zone.1.toList ++ b ++ '=' :: c ++ zone.2.repr.toList ++ d

/-- A zone that can be written: the name is not empty, has neither comma nor equals sign, and no blanks
    around it, and the offset has 32 bits. -/
structure Writable (zone : String × Int) : Prop where
  ne_empty : zone.1 ≠ ""
  no_comma : ',' ∉ zone.1.toList
  no_equals : '=' ∉ zone.1.toList
  trimmed : trim zone.1.toList = zone.1.toList
  isInt32 : IsInt32 zone.2

/-- Blanks around an integer are dropped. -/
theorem trim_integer {front back text : List Char} {n : Int} (hfront : ∀ c ∈ front, isBlank c = true)
    (hback : ∀ c ∈ back, isBlank c = true) (h : IsInteger text n) :
    trim (front ++ text ++ back) = text :=
  trim_surrounded hfront hback (fun _ hc => isBlank_of_isInteger h (List.mem_of_head? hc))
    fun _ hc => isBlank_of_isInteger h (List.mem_of_getLast? hc)

/-- What is written for a zone gives the zone its offset. -/
theorem Writes.isEntry {zone : String × Int} (h : Writes zone entry) (hzone : Writable zone) :
    IsEntry entry zone.1 zone.2 := by
  obtain ⟨name, offset⟩ := zone
  obtain ⟨a, b, c, d, hblank, rfl⟩ := h
  simp only [List.mem_append, or_imp, forall_and] at hblank
  obtain ⟨⟨⟨ha, hb⟩, hc⟩, hd⟩ := hblank
  have hinteger := isInteger_repr offset
  obtain ⟨hfirst, -⟩ := ends_of_trim_eq_self hzone.trimmed
  refine ⟨name.toList ++ b, c ++ offset.repr.toList, ?_, fun hmem => ?_, ?_, hzone.ne_empty, ?_,
    hzone.isInt32⟩
  · -- the entry begins with the name and ends with the offset, so only `a` and `d` are trimmed
    have hparts : a ++ name.toList ++ b ++ '=' :: c ++ offset.repr.toList ++ d
        = a ++ (name.toList ++ b ++ '=' :: (c ++ offset.repr.toList)) ++ d := by simp
    rw [hparts]
    refine trim_surrounded ha hd (fun x hx => ?_) fun x hx => ?_
    · rw [List.append_assoc, List.head?_append_of_ne_nil _
        fun hempty => hzone.ne_empty (String.toList_eq_nil_iff.1 hempty)] at hx
      exact hfirst x hx
    · rw [← List.cons_append, ← List.append_assoc,
        List.getLast?_append_of_ne_nil _ hinteger.ne_nil] at hx
      exact isBlank_of_isInteger hinteger (List.mem_of_getLast? hx)
  · rcases List.mem_append.1 hmem with hname | hgap
    · exact hzone.no_equals hname
    · exact absurd (hb _ hgap) (by decide)
  · rw [← List.nil_append (name.toList ++ b), ← List.append_assoc]
    exact trim_surrounded_of_trimmed nofun hb hzone.trimmed
  · have hkept : trim (c ++ offset.repr.toList ++ []) = offset.repr.toList :=
      trim_integer hc nofun hinteger
    rw [List.append_nil] at hkept
    rw [hkept]
    exact hinteger

/-- What is written for a zone has no comma. -/
theorem Writes.no_comma {zone : String × Int} (h : Writes zone entry) (hzone : Writable zone) :
    ',' ∉ entry := by
  obtain ⟨a, b, c, d, hblank, rfl⟩ := h
  simp only [List.mem_append, or_imp, forall_and] at hblank
  obtain ⟨⟨⟨ha, hb⟩, hc⟩, hd⟩ := hblank
  have hgap {part : List Char} (hpart : ∀ x ∈ part, isBlank x = true) : ',' ∉ part := fun hmem =>
    absurd (hpart _ hmem) (by decide)
  intro hcomma
  simp only [List.mem_append, List.mem_cons, Char.reduceEq, false_or] at hcomma
  rcases hcomma with ((((hmem | hmem) | hmem) | hmem) | hmem) | hmem
  · exact hgap ha hmem
  · exact hzone.no_comma hmem
  · exact hgap hb hmem
  · exact hgap hc hmem
  · rcases (isInteger_repr zone.2).isDigit_or_isSign hmem with hdigit | hsign
    · exact absurd hdigit (by decide)
    · exact absurd hsign (by decide)
  · exact hgap hd hmem

/-- The zones that are written are read. -/
theorem filterMap_readEntry?_of_writes {rows : List (String × Int)} {entries : List (List Char)}
    (h : List.Forall₂ Writes rows entries) (hrows : ∀ zone ∈ rows, Writable zone) :
    entries.filterMap readEntry? = rows ∧ ∀ entry ∈ entries, ',' ∉ entry := by
  induction h with
  | nil => exact ⟨rfl, fun entry hentry => absurd hentry List.not_mem_nil⟩
  | @cons zone entry rows entries hwrites _ ih =>
    have hzone := hrows zone List.mem_cons_self
    obtain ⟨hread, hcommas⟩ := ih fun other hother => hrows other (List.mem_cons_of_mem zone hother)
    constructor
    · rw [List.filterMap_cons_some (readEntry?_eq_some_iff.2 (hwrites.isEntry hzone)), hread]
    · exact List.forall_mem_cons.2 ⟨hwrites.no_comma hzone, hcommas⟩

/-- What the text of a table of zones tells. A zone has the offset that the last entry for it gives. An
    entry that is blank or malformed changes nothing, wherever it stands. And a table of zones that can
    be written is read back from its entries in any order, with any blanks around their parts. -/
theorem read_zones :
    (∀ text name seconds, (read text).get? name = some (name, seconds)
        ↔ LastEntry (text.splitOn ',') name seconds)
      ∧ (∀ earlier entry later, (∀ part ∈ earlier ++ entry :: later, ',' ∉ part) →
        ((∀ c ∈ entry, isBlank c = true) ∨ ∀ name seconds, ¬ IsEntry entry name seconds) →
        read ([','].intercalate (earlier ++ entry :: later))
          = read ([','].intercalate (earlier ++ later)))
      ∧ ∀ zones : ZoneTable, (∀ zone ∈ zones.rows, Writable zone) →
        ∀ rows entries, rows.Perm zones.rows → List.Forall₂ Writes rows entries →
          read ([','].intercalate entries) = zones := by
  refine ⟨fun text name seconds => get?_read_eq_some_iff, fun earlier entry later hcommas hskip => ?_,
    fun zones hzones rows entries horder hwrites => ?_⟩
  · have hmalformed : readEntry? entry = none := by
      refine readEntry?_eq_none_iff.2 ?_
      rcases hskip with hblank | hmalformed
      · exact not_isEntry_of_blank hblank
      · exact hmalformed
    have hothers : ∀ part ∈ earlier ++ later, ',' ∉ part := by
      intro part hpart
      refine hcommas part (List.mem_append.2 ?_)
      exact (List.mem_append.1 hpart).imp_right (List.mem_cons_of_mem entry)
    rw [read_intercalate hcommas, read_intercalate hothers, List.filterMap_append,
      List.filterMap_cons_none hmalformed, List.filterMap_append]
  · obtain ⟨hread, hcommas⟩ := filterMap_readEntry?_of_writes hwrites
      fun zone hzone => hzones zone (horder.mem_iff.1 hzone)
    rw [read_intercalate hcommas, hread]
    exact Table.ofList_eq_of_perm horder

/-- Two zones that are written out of order, with blanks, and with a malformed entry between them. -/
theorem read_zones_outOfOrder :
    let zones : ZoneTable := .ofList [("Asia/Tokyo", 32400), ("Here", -60)]
    let written : List (List Char) := [" Here =\t-60".toList, "Asia/Tokyo=32400".toList]
    let broken : List (List Char) :=
      [" Here =\t-60".toList, "Here=12h".toList, "Asia/Tokyo=32400".toList]
    (∀ zone ∈ zones.rows, Writable zone)
      ∧ List.Forall₂ Writes [("Here", -60), ("Asia/Tokyo", 32400)] written
      ∧ read ([','].intercalate written) = zones ∧ read ([','].intercalate broken) = zones
      ∧ LastEntry (([','].intercalate broken).splitOn ',') "Here" (-60) := by
  intro zones written broken
  have hzones : ∀ zone ∈ zones.rows, Writable zone := by
    have hrows : zones.rows = [("Asia/Tokyo", 32400), ("Here", -60)] := by decide +kernel
    rw [hrows]
    intro zone hzone
    simp only [List.mem_cons, List.not_mem_nil, or_false] at hzone
    rcases hzone with rfl | rfl
    · exact ⟨by decide, by decide, by decide, by decide +kernel, by constructor <;> decide⟩
    · exact ⟨by decide, by decide, by decide, by decide +kernel, by constructor <;> decide⟩
  have hwrites : List.Forall₂ Writes [("Here", -60), ("Asia/Tokyo", 32400)] written :=
    .cons ⟨[' '], [' '], ['\t'], [], List.all_eq_true.1 (by decide), by decide +kernel⟩
      (.cons ⟨[], [], [], [], List.all_eq_true.1 (by decide), by decide +kernel⟩ .nil)
  obtain ⟨hlast, hskips, hreads⟩ := read_zones
  have horder : [("Here", (-60 : Int)), ("Asia/Tokyo", 32400)].Perm zones.rows := by decide +kernel
  have hread := hreads zones hzones _ written horder hwrites
  have hsame : read ([','].intercalate broken) = read ([','].intercalate written) := by
    refine hskips [" Here =\t-60".toList] "Here=12h".toList ["Asia/Tokyo=32400".toList]
      (by decide +kernel) (.inr ?_)
    exact readEntry?_eq_none_iff.1 (by decide +kernel)
  refine ⟨hzones, hwrites, hread, hsame.trans hread, (hlast _ _ _).1 ?_⟩
  rw [hsame, hread]
  decide +kernel

end ZoneTable

end ScanFleet
