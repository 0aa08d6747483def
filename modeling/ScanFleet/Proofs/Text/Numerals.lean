import Mathlib.Data.Int.Basic
import ScanFleet.Text.Blank
import ScanFleet.Text.Integer

set_option autoImplicit false

/-! # How integers are written

A numeral is a run of ASCII digits, and an integer a numeral with or without a sign in front
(`IsInteger`). Reading accepts exactly these texts, as the numbers that they write, within the wanted
range; so a text that is read has no character besides digits but the sign at its front. -/

namespace ScanFleet

/-- The characters that may stand in front of a number. -/
def isSign (c : Char) : Bool := c == '+' || c == '-'

/-- The text is the number in ASCII digits, zeros in front allowed. -/
structure IsNumeral (text : List Char) (n : Nat) : Prop where
  ne_nil : text ≠ []
  digits : ∀ c ∈ text, c.isDigit = true
  value : Nat.ofDigitChars 10 text 0 = n

/-- The text is the integer: a numeral, with or without a sign. -/
inductive IsInteger : List Char → Int → Prop
  | plain {text : List Char} {n : Nat} (h : IsNumeral text n) : IsInteger text n
  | plus {text : List Char} {n : Nat} (h : IsNumeral text n) : IsInteger ('+' :: text) n
  | minus {text : List Char} {n : Nat} (h : IsNumeral text n) : IsInteger ('-' :: text) (-n)

/-! ## Characters -/

theorem isSign_of_isDigit {c : Char} (h : c.isDigit = true) : isSign c = false := by
  unfold isSign
  rw [Bool.or_eq_false_iff, beq_eq_false_iff_ne, beq_eq_false_iff_ne]
  constructor
  · rintro rfl
    exact absurd h (by decide)
  · rintro rfl
    exact absurd h (by decide)

theorem isBlank_of_isDigit {c : Char} (h : c.isDigit = true) : isBlank c = false := by
  obtain ⟨hleast, hmost⟩ := Char.isDigit_iff_toNat.1 h
  have hzero : '0'.toNat = 48 := rfl
  have hnine : '9'.toNat = 57 := rfl
  simp only [isBlank, blankRanges, List.any_cons, List.any_nil, Bool.or_false, Bool.or_eq_false_iff,
    Bool.and_eq_false_iff, decide_eq_false_iff_not]
  omega

theorem isSign_plus : isSign '+' = true := rfl

theorem isSign_minus : isSign '-' = true := rfl

/-- A numeral has no sign. -/
theorem IsNumeral.countP_isSign {text : List Char} {n : Nat} (h : IsNumeral text n) :
    text.countP isSign = 0 :=
  List.countP_eq_zero.2 fun c hc => by rw [isSign_of_isDigit (h.digits c hc)]; exact Bool.false_ne_true

theorem IsInteger.ne_nil {text : List Char} {n : Int} (h : IsInteger text n) : text ≠ [] := by
  cases h with
  | plain h => exact h.ne_nil
  | plus h => exact List.cons_ne_nil _ _
  | minus h => exact List.cons_ne_nil _ _

/-- A character of an integer is a digit or a sign. -/
theorem IsInteger.isDigit_or_isSign {text : List Char} {n : Int} (h : IsInteger text n) {c : Char}
    (hc : c ∈ text) : c.isDigit = true ∨ isSign c = true := by
  cases h with
  | plain h => exact .inl (h.digits c hc)
  | plus h =>
    rcases List.mem_cons.1 hc with rfl | hc
    · exact .inr isSign_plus
    · exact .inl (h.digits c hc)
  | minus h =>
    rcases List.mem_cons.1 hc with rfl | hc
    · exact .inr isSign_minus
    · exact .inl (h.digits c hc)

/-- An integer has no blanks. -/
theorem isBlank_of_isInteger {text : List Char} {n : Int} (h : IsInteger text n) {c : Char}
    (hc : c ∈ text) : isBlank c = false := by
  rcases h.isDigit_or_isSign hc with hdigit | hsign
  · exact isBlank_of_isDigit hdigit
  · simp only [isSign, Bool.or_eq_true, beq_iff_eq] at hsign
    rcases hsign with rfl | rfl
    · decide
    · decide

/-- Without a sign an integer is a numeral. -/
theorem IsInteger.isNumeral {text : List Char} {n : Nat} (h : IsInteger text n)
    (hsign : text.countP isSign = 0) : IsNumeral text n := by
  have hfree := List.countP_eq_zero.1 hsign
  generalize hvalue : (n : Int) = value at h
  cases h with
  | plain h =>
    obtain rfl := Int.natCast_inj.1 hvalue
    exact h
  | plus h => exact absurd isSign_plus (hfree '+' List.mem_cons_self)
  | minus h => exact absurd isSign_minus (hfree '-' List.mem_cons_self)

/-! ## Reading -/

theorem digitsValue_eq (value : Nat) (text : List Char) :
    digitsValue value text = Nat.ofDigitChars 10 text value := by
  rw [Nat.ofDigitChars_eq_foldl]
  induction text generalizing value with
  | nil => rfl
  | cons c rest ih => exact ih _

/-- Reading digits accepts exactly the numerals. -/
theorem readDigits?_eq_some_iff {text : List Char} {n : Nat} :
    readDigits? text = some n ↔ IsNumeral text n := by
  unfold readDigits?
  rw [digitsValue_eq, Option.ite_none_right_eq_some, List.all_eq_true, Option.some.injEq]
  constructor
  · rintro ⟨⟨hne, hdigits⟩, hvalue⟩
    exact ⟨hne, hdigits, hvalue⟩
  · intro h
    exact ⟨⟨h.ne_nil, h.digits⟩, h.value⟩

/-- Reading an integer accepts exactly the integers of the wanted range. -/
theorem readInt?_eq_some_iff {least most n : Int} {text : List Char} :
    readInt? least most text = some n ↔ IsInteger text n ∧ least ≤ n ∧ n ≤ most := by
  unfold readInt?
  rw [Option.filter_eq_some_iff, decide_eq_true_eq]
  refine and_congr_left fun _ => ?_
  split
  · rename_i rest
    rw [Option.map_eq_some_iff]
    constructor
    · rintro ⟨m, hread, rfl⟩
      exact .plus (readDigits?_eq_some_iff.1 hread)
    · intro h
      cases h with
      | plain h => exact absurd (h.digits '+' List.mem_cons_self) (by decide)
      | plus h => exact ⟨_, readDigits?_eq_some_iff.2 h, rfl⟩
  · rename_i rest
    rw [Option.map_eq_some_iff]
    constructor
    · rintro ⟨m, hbind, rfl⟩
      obtain ⟨k, hread, hk⟩ := Option.bind_eq_some_iff.1 hbind
      obtain rfl := Option.some.inj hk
      exact .minus (readDigits?_eq_some_iff.1 hread)
    · intro h
      cases h with
      | plain h => exact absurd (h.digits '-' List.mem_cons_self) (by decide)
      | minus h =>
        exact ⟨_, Option.bind_eq_some_iff.2 ⟨_, readDigits?_eq_some_iff.2 h, rfl⟩, rfl⟩
  · rename_i hplus hminus
    rw [Option.map_eq_some_iff]
    constructor
    · rintro ⟨m, hread, rfl⟩
      exact .plain (readDigits?_eq_some_iff.1 hread)
    · intro h
      cases h with
      | plain h => exact ⟨_, readDigits?_eq_some_iff.2 h, rfl⟩
      | plus h => exact absurd rfl (hplus _)
      | minus h => exact absurd rfl (hminus _)

/-- The integers of 32 bits. -/
def IsInt32 (n : Int) : Prop := Int32.minValue.toInt ≤ n ∧ n ≤ Int32.maxValue.toInt

theorem readInt32?_eq_some_iff {text : List Char} {n : Int} :
    readInt32? text = some n ↔ IsInteger text n ∧ IsInt32 n :=
  readInt?_eq_some_iff

/-! ## Writing -/

theorem isNumeral_toDigits (n : Nat) : IsNumeral (Nat.toDigits 10 n) n where
  ne_nil := Nat.toDigits_ne_nil
  digits c hc := Nat.isDigit_of_mem_toDigits (by decide) (by decide) hc
  value := Nat.ofDigitChars_ten_toDigits

/-- What is written for an integer is the integer. -/
theorem isInteger_repr (n : Int) : IsInteger n.repr.toList n := by
  have hnumeral (m : Nat) : IsNumeral m.repr.toList m := by
    rw [Nat.repr, String.toList_ofList]
    exact isNumeral_toDigits m
  rw [Int.repr_eq_if]
  split
  · have h := IsInteger.plain (hnumeral n.toNat)
    rwa [Int.toNat_of_nonneg (by assumption)] at h
  · have h := IsInteger.minus (hnumeral (-n).toNat)
    rw [Int.toNat_of_nonneg (by omega), Int.neg_neg] at h
    rw [String.toList_append]
    exact h

end ScanFleet
