import Mathlib.Data.List.Count
import ScanFleet.Calendar.Zone
import ScanFleet.Proofs.Text.Numerals
import ScanFleet.Proofs.Text.Parts

set_option autoImplicit false

/-! # Which literals name a zone

A literal is `UTC`, or `UTC` with a sign, hours and, after a colon, minutes. How the two numbers may be
written is left open here (`Literal`). The documented literals write them in digits alone. What is read
also lets each number carry a sign of its own, as integers do: a plus, or a minus before a zero. So
`UTC++5` is read as five hours east. A literal that is read is a documented one exactly when it has no
second sign. -/

namespace ScanFleet

namespace ZoneTable

/-! ## Literals -/

/-- Hours up to 14, and minutes after a colon, with the seconds that they make up. -/
inductive HourMinute (number : List Char → Nat → Prop) : List Char → Int → Prop
  | hours {text : List Char} {h : Nat} (hours : number text h) (most : h ≤ 14) :
    HourMinute number text (3600 * h)
  | minutes {text rest : List Char} {h m : Nat} (hours : number text h) (most : h ≤ 14)
    (minutes : number rest m) (within : m < 60) :
    HourMinute number (text ++ ':' :: rest) (3600 * h + 60 * m)

/-- A literal with the seconds east of its zone, where `number` tells how numbers are written. -/
inductive Literal (number : List Char → Nat → Prop) : List Char → Int → Prop
  | utc : Literal number ['U', 'T', 'C'] 0
  | east {text : List Char} {seconds : Int} (offset : HourMinute number text seconds) :
    Literal number ('U' :: 'T' :: 'C' :: '+' :: text) seconds
  | west {text : List Char} {seconds : Int} (offset : HourMinute number text seconds) :
    Literal number ('U' :: 'T' :: 'C' :: '-' :: text) (-seconds)

/-- A number that may carry a sign of its own. -/
def MaySign (text : List Char) (n : Nat) : Prop := IsInteger text n

variable {text : List Char} {seconds : Int}

/-! ## Reading -/

theorem not_mem_of_isInteger {n : Int} (h : IsInteger text n) : ':' ∉ text := by
  intro hc
  rcases h.isDigit_or_isSign hc with hdigit | hsign
  · exact absurd hdigit (by decide)
  · exact absurd hsign (by decide)

/-- The hours and minutes of a text, before they are held against their bounds. -/
theorem readHourMinute?_eq_some_iff {h m : Int} :
    readHourMinute? text = some (h, m)
      ↔ (readInt32? text = some h ∧ m = 0)
        ∨ ∃ hours minutes, text = hours ++ ':' :: minutes ∧ readInt32? hours = some h
          ∧ readInt32? minutes = some m := by
  unfold readHourMinute?
  split
  · rename_i hours minutes hcut
    obtain ⟨rfl, hfirst⟩ := cutAt_eq_some_iff.1 hcut
    constructor
    · intro hread
      obtain ⟨h', hhours, hread⟩ := Option.bind_eq_some_iff.1 hread
      obtain ⟨m', hminutes, hpair⟩ := Option.bind_eq_some_iff.1 hread
      obtain ⟨rfl, rfl⟩ := Prod.mk.inj (Option.some.inj hpair)
      exact .inr ⟨hours, minutes, rfl, hhours, hminutes⟩
    · rintro (⟨hwhole, -⟩ | ⟨hours', minutes', hsplit, hhours, hminutes⟩)
      · refine absurd ?_ (not_mem_of_isInteger (readInt32?_eq_some_iff.1 hwhole).1)
        simp
      · have hcut' : cutAt ':' (hours' ++ ':' :: minutes') = some (hours', minutes') :=
          cutAt_eq_some_iff.2 ⟨rfl, not_mem_of_isInteger (readInt32?_eq_some_iff.1 hhours).1⟩
        rw [← hsplit, hcut] at hcut'
        obtain ⟨rfl, rfl⟩ := Prod.mk.inj (Option.some.inj hcut')
        rw [hhours, hminutes]
        rfl
  · rename_i hcut
    have hnone := cutAt_eq_none_iff.1 hcut
    rw [Option.map_eq_some_iff]
    constructor
    · rintro ⟨h', hread, hpair⟩
      obtain ⟨rfl, rfl⟩ := Prod.mk.inj hpair
      exact .inl ⟨hread, rfl⟩
    · rintro (⟨hwhole, rfl⟩ | ⟨hours, minutes, rfl, -, -⟩)
      · exact ⟨h, hwhole, rfl⟩
      · exact absurd (by simp) hnone

theorem isInt32_of_le {n : Nat} (h : n ≤ 60) : IsInt32 n := by
  have hleast : Int32.minValue.toInt ≤ 0 := by decide
  have hmost : 60 ≤ Int32.maxValue.toInt := by decide
  constructor
  · omega
  · omega

/-- Reading an offset accepts exactly hours and minutes that may carry signs of their own. -/
theorem readOffset?_eq_some_iff :
    readOffset? text = some seconds ↔ HourMinute MaySign text seconds := by
  constructor
  · intro hread
    obtain ⟨⟨h, m⟩, hpair, hread⟩ := Option.bind_eq_some_iff.1 hread
    obtain ⟨⟨hleast, hmost, mleast, mmost⟩, hsum⟩ := Option.ite_none_right_eq_some.1 hread
    obtain rfl := Option.some.inj hsum
    obtain ⟨h, rfl⟩ := Int.eq_ofNat_of_zero_le hleast
    obtain ⟨m, rfl⟩ := Int.eq_ofNat_of_zero_le mleast
    obtain ⟨hwhole, hzero⟩ | ⟨hours, minutes, rfl, hhours, hminutes⟩ :=
      readHourMinute?_eq_some_iff.1 hpair
    · rw [hzero, Int.mul_zero, Int.add_zero]
      exact .hours (readInt32?_eq_some_iff.1 hwhole).1 (by omega)
    · exact .minutes (readInt32?_eq_some_iff.1 hhours).1 (by omega)
        (readInt32?_eq_some_iff.1 hminutes).1 (by omega)
  · intro h
    refine Option.bind_eq_some_iff.2 ?_
    cases h with
    | @hours _ h hours most =>
      have hread := readInt32?_eq_some_iff.2 ⟨hours, isInt32_of_le (by omega)⟩
      refine ⟨(h, 0), readHourMinute?_eq_some_iff.2 (.inl ⟨hread, rfl⟩), ?_⟩
      refine Option.ite_none_right_eq_some.2 ⟨⟨by omega, by omega, by omega, by omega⟩, ?_⟩
      rw [Int.mul_zero, Int.add_zero]
    | @minutes text rest h m hours most minutes within =>
      have hhours := readInt32?_eq_some_iff.2 ⟨hours, isInt32_of_le (by omega)⟩
      have hminutes := readInt32?_eq_some_iff.2 ⟨minutes, isInt32_of_le (by omega)⟩
      refine ⟨(h, m), readHourMinute?_eq_some_iff.2 (.inr ⟨_, _, rfl, hhours, hminutes⟩), ?_⟩
      exact Option.ite_none_right_eq_some.2 ⟨⟨by omega, by omega, by omega, by omega⟩, rfl⟩

/-- Reading a literal accepts exactly those whose numbers may carry signs of their own. -/
theorem readLiteral?_eq_some_iff :
    readLiteral? text = some seconds ↔ Literal MaySign (trim text) seconds := by
  unfold readLiteral?
  generalize trim text = name
  have hlead {rest : List Char} (h : afterLead ['U', 'T', 'C'] name = some rest) :
      name = 'U' :: 'T' :: 'C' :: rest := afterLead_eq_some_iff.1 h
  split
  · rename_i hrest
    rw [hlead hrest]
    constructor
    · intro hread
      obtain rfl := Option.some.inj hread
      exact .utc
    · intro h
      cases h
      rfl
  · rename_i rest hrest
    rw [hlead hrest, readOffset?_eq_some_iff]
    constructor
    · exact .east
    · intro h
      cases h with
      | east h => exact h
  · rename_i rest hrest
    rw [hlead hrest, Option.map_eq_some_iff]
    constructor
    · rintro ⟨s, hread, rfl⟩
      exact .west (readOffset?_eq_some_iff.1 hread)
    · intro h
      cases h with
      | west h => exact ⟨_, readOffset?_eq_some_iff.2 h, rfl⟩
  · rename_i hutc heast hwest
    refine ⟨nofun, fun h => ?_⟩
    cases h with
    | utc => exact absurd rfl hutc
    | east h => exact absurd rfl (heast _)
    | west h => exact absurd rfl (hwest _)

/-! ## A second sign -/

/-- Digits alone will do where a sign may stand. -/
theorem HourMinute.maySign (h : HourMinute IsNumeral text seconds) :
    HourMinute MaySign text seconds := by
  cases h with
  | hours hours most => exact .hours (.plain hours) most
  | minutes hours most minutes within => exact .minutes (.plain hours) most (.plain minutes) within

theorem HourMinute.countP_isSign (h : HourMinute IsNumeral text seconds) :
    text.countP isSign = 0 := by
  cases h with
  | hours hours most => exact hours.countP_isSign
  | minutes hours most minutes within =>
    rw [List.countP_append, List.countP_cons_of_neg (by decide), hours.countP_isSign,
      minutes.countP_isSign]

theorem HourMinute.isNumeral (h : HourMinute MaySign text seconds)
    (hsign : text.countP isSign = 0) : HourMinute IsNumeral text seconds := by
  cases h with
  | hours hours most => exact .hours (IsInteger.isNumeral hours hsign) most
  | minutes hours most minutes within =>
    rw [List.countP_append, List.countP_cons_of_neg (by decide)] at hsign
    exact .minutes (IsInteger.isNumeral hours (by omega)) most
      (IsInteger.isNumeral minutes (by omega)) within

/-- The documented literals are read, and of what is read they are those without a second sign. -/
theorem literal_isNumeral_iff : Literal IsNumeral text seconds
    ↔ Literal MaySign text seconds ∧ text.countP isSign ≤ 1 := by
  constructor
  · intro h
    cases h with
    | utc => exact ⟨.utc, by decide⟩
    | east h =>
      have hnone := h.countP_isSign
      exact ⟨.east h.maySign, by simp [hnone, isSign]⟩
    | west h =>
      have hnone := h.countP_isSign
      exact ⟨.west h.maySign, by simp [hnone, isSign]⟩
  · rintro ⟨h, hsign⟩
    cases h with
    | utc => exact .utc
    | east h => exact .east (h.isNumeral (by simpa [List.countP_cons, isSign] using hsign))
    | west h => exact .west (h.isNumeral (by simpa [List.countP_cons, isSign] using hsign))

/-- Which names that the table lacks name a zone, and how far east. They are the literals whose numbers
    may carry signs of their own. So the documented literals, and no others, are read wherever a name
    that is read has no second sign. -/
theorem offset?_literal_iff {zones : ZoneTable} {name : String} (hmissing : zones.get? name = none) :
    (∀ seconds, zones.offset? name = some seconds
        ↔ Literal MaySign (trim name.toList) seconds)
      ∧ ((∀ seconds, zones.offset? name = some seconds
          ↔ Literal IsNumeral (trim name.toList) seconds)
        ↔ ((zones.offset? name).isSome = true → (trim name.toList).countP isSign ≤ 1)) := by
  have hread (seconds : Int) : zones.offset? name = some seconds
      ↔ Literal MaySign (trim name.toList) seconds := by
    rw [offset?, hmissing]
    exact readLiteral?_eq_some_iff
  refine ⟨hread, fun hdocumented hsome => ?_, fun hsign seconds => ?_⟩
  · obtain ⟨seconds, hoffset⟩ := Option.isSome_iff_exists.1 hsome
    exact (literal_isNumeral_iff.1 ((hdocumented seconds).1 hoffset)).2
  · rw [literal_isNumeral_iff, ← hread]
    exact ⟨fun h => ⟨h, hsign (Option.isSome_of_eq_some h)⟩, And.left⟩

/-- A name with blanks around it that a table without it reads as five and a half hours west. -/
theorem offset?_literal_iff_padded :
    let zones : ZoneTable := .ofList [("Europe/Berlin", 7200)]
    zones.get? " UTC-05:30\t" = none ∧ zones.offset? " UTC-05:30\t" = some (-19800)
      ∧ Literal IsNumeral (trim " UTC-05:30\t".toList) (-19800) := by
  intro zones
  have hmissing : zones.get? " UTC-05:30\t" = none := by decide +kernel
  have hsign : (trim " UTC-05:30\t".toList).countP isSign ≤ 1 := by decide +kernel
  have hoffset : zones.offset? " UTC-05:30\t" = some (-19800) := by decide +kernel
  exact ⟨hmissing, hoffset, ((offset?_literal_iff hmissing).2.2 (fun _ => hsign) _).1 hoffset⟩

/-- A literal with a second sign is read, but it is not a documented one. -/
theorem readsSecondSign :
    ¬ ∀ seconds, ZoneTable.offset? .empty "UTC++5" = some seconds
      ↔ Literal IsNumeral (trim "UTC++5".toList) seconds := by
  intro hdocumented
  have hoffset : ZoneTable.offset? .empty "UTC++5" = some 18000 := by decide +kernel
  have hsign := (literal_isNumeral_iff.1 ((hdocumented 18000).1 hoffset)).2
  exact absurd hsign (by decide +kernel)

end ZoneTable

end ScanFleet
