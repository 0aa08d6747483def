import ScanFleet.Calendar.Date
import ScanFleet.Proofs.Calendar.LocalTime
import ScanFleet.Proofs.Text.Numerals

set_option autoImplicit false

/-! # Dates read back from their texts

Reading a date is lenient about blanks and leading zeros, so many texts stand for one date. The text
that is written is one of them, at every year of the calendar: a year of more than four digits, or
before year zero, is written with a sign, and after a sign a year may have any number of digits. -/

namespace ScanFleet

/-! ## Numbers of a certain width -/

/-- Zeros in front do not change a number. -/
theorem isNumeral_paddedText (width n : Nat) : IsNumeral (paddedText width n) n where
  ne_nil := List.append_ne_nil_of_right_ne_nil _ Nat.toDigits_ne_nil
  digits c hc := by
    rcases List.mem_append.1 hc with hzero | hdigit
    · rw [List.eq_of_mem_replicate hzero]
      decide
    · exact (isNumeral_toDigits n).digits c hdigit
  value := by
    rw [paddedText, Nat.ofDigitChars_append, Nat.ofDigitChars_replicate_zero, Nat.mul_zero]
    exact Nat.ofDigitChars_ten_toDigits

/-- A number that fits the width is not wider. -/
theorem length_paddedText_le {width n : Nat} (hwidth : 0 < width) (h : n < 10 ^ width) :
    (paddedText width n).length ≤ width := by
  have hdigits : (natText n).length ≤ width :=
    (Nat.length_toDigits_le_iff (by decide) hwidth).2 h
  rw [paddedText, List.length_append, List.length_replicate]
  omega

theorem Civil.daysInMonth_le (year : Int) (month : Nat) : daysInMonth year month ≤ 31 := by
  unfold daysInMonth
  split
  · split
    · decide
    · decide
  · split
    · decide
    · exact Nat.le_refl 31

namespace Date

variable {text rest : List Char} {n most : Nat}

theorem trimStart_eq_self (h : ∀ c ∈ text.head?, isBlank c = false) : trimStart text = text := by
  cases text with
  | nil => rfl
  | cons c rest => rw [trimStart, List.dropWhile_cons_of_neg (by simp [h c rfl])]

/-- A text that starts with a numeral starts with a digit. -/
theorem isDigit_of_numeral {c : Char} (h : IsNumeral text n) (hc : c ∈ (text ++ rest).head?) :
    c.isDigit = true := by
  rw [List.head?_append, Option.or_of_isSome (List.isSome_head?.2 h.ne_nil)] at hc
  exact h.digits c (List.mem_of_head? hc)

theorem trimStart_numeral (h : IsNumeral text n) (rest : List Char) :
    trimStart (text ++ rest) = text ++ rest :=
  trimStart_eq_self fun _ hc => isBlank_of_isDigit (isDigit_of_numeral h hc)

/-- A numeral that is short enough is read, up to the first character that is no digit. -/
theorem readField?_numeral (h : IsNumeral text n) (hlength : text.length ≤ most)
    (hends : ∀ c ∈ rest.head?, c.isDigit = false) :
    readField? most (text ++ rest) = some (n, rest) := by
  have hrest (k : Nat) : (rest.take k).takeWhile Char.isDigit = [] := by
    cases k with
    | zero => rfl
    | succ k =>
      cases rest with
      | nil => rfl
      | cons c rest => rw [List.take_succ_cons, List.takeWhile_cons_of_neg (by simp [hends c rfl])]
  have hdigits : ((text ++ rest).take most).takeWhile Char.isDigit = text := by
    rw [List.take_append, List.take_of_length_le hlength, List.takeWhile_append_of_pos h.digits,
      hrest, List.append_nil]
  have hsome : text.isEmpty = false := by simpa using h.ne_nil
  unfold readField?
  rw [trimStart_numeral h]
  simp only [hdigits, hsome, Bool.false_eq_true, if_false, digitsValue_eq, h.value, List.drop_left]

theorem readYear?_minus (text : List Char) :
    readYear? ('-' :: text) = if text.head?.any Char.isDigit then
      (readField? text.length text).map fun (n, rest) => (-(n : Int), rest) else none := by
  rw [readYear?, trimStart_eq_self (by simp; decide)]
  rfl

theorem readYear?_plus (text : List Char) :
    readYear? ('+' :: text) = if text.head?.any Char.isDigit then
      (readField? text.length text).map fun (n, rest) => ((n : Int), rest) else none := by
  rw [readYear?, trimStart_eq_self (by simp; decide)]
  rfl

/-- A year is read back, whatever its sign and its size. -/
theorem readYear?_yearText (year : Int) (hends : ∀ c ∈ rest.head?, c.isDigit = false) :
    readYear? (yearText year ++ rest) = some (year, rest) := by
  unfold yearText
  split
  · rename_i hshort
    have hnumeral := isNumeral_paddedText 4 year.toNat
    have hlength : (paddedText 4 year.toNat).length ≤ 4 := length_paddedText_le (by decide) (by omega)
    rw [readYear?, trimStart_numeral hnumeral]
    split
    · rename_i heq
      exact absurd (isDigit_of_numeral hnumeral (by rw [heq]; rfl)) (by decide)
    · rename_i heq
      exact absurd (isDigit_of_numeral hnumeral (by rw [heq]; rfl)) (by decide)
    · rw [readField?_numeral hnumeral hlength hends, Option.map_some]
      dsimp only
      rw [Int.toNat_of_nonneg hshort.1]
  · rename_i hlong
    have hnumeral := isNumeral_paddedText 4 year.natAbs
    generalize hdigits : paddedText 4 year.natAbs = digits at hnumeral
    have hdigit : (digits ++ rest).head?.any Char.isDigit = true := by
      rw [List.head?_append, Option.or_of_isSome (List.isSome_head?.2 hnumeral.ne_nil),
        List.head?_eq_some_head hnumeral.ne_nil]
      exact hnumeral.digits _ (List.head_mem hnumeral.ne_nil)
    have hfield : readField? (digits ++ rest).length (digits ++ rest) = some (year.natAbs, rest) :=
      readField?_numeral hnumeral (by simp) hends
    by_cases hnegative : year < 0
    · rw [if_pos hnegative, List.cons_append, readYear?_minus, if_pos hdigit, hfield,
        Option.map_some]
      dsimp only
      rw [show -(year.natAbs : Int) = year by omega]
    · rw [if_neg hnegative, List.cons_append, readYear?_plus, if_pos hdigit, hfield, Option.map_some]
      dsimp only
      rw [show (year.natAbs : Int) = year by omega]

theorem readMark?_cons {mark : Char} (hmark : isBlank mark = false) (rest : List Char) :
    readMark? mark (mark :: rest) = some rest := by
  rw [readMark?, trimStart_eq_self (by simpa using hmark)]
  exact if_pos rfl

/-- The year, month and day of a date are those of no other. -/
theorem ofCivil?_civil (date : Date) : ofCivil? date.civil = some date := by
  have hday : ofDay? date.day = some date := dif_pos ⟨date.first_le, date.le_last⟩
  have hvalid : date.civil.IsValid := Civil.isValid_ofDays date.day
  rw [ofCivil?, if_pos hvalid, toDays_civil, hday]

/-- Written in front of anything but a digit, a date is read back. -/
theorem readFront?_text (date : Date) (hends : ∀ c ∈ rest.head?, c.isDigit = false) :
    readFront? (date.text ++ rest) = some (date, rest) := by
  obtain ⟨-, hmonth, -, hday⟩ : date.civil.IsValid := Civil.isValid_ofDays date.day
  have hday := Nat.le_trans hday (Civil.daysInMonth_le date.civil.year date.civil.month)
  have hhyphen (tail : List Char) : ∀ c ∈ ('-' :: tail).head?, c.isDigit = false := by
    simp
  have hyearField := readYear?_yearText date.civil.year
    (hhyphen (paddedText 2 date.civil.month ++ '-' :: (paddedText 2 date.civil.day ++ rest)))
  have hmonthField := readField?_numeral (isNumeral_paddedText 2 date.civil.month)
    (length_paddedText_le (by decide) (Nat.lt_of_le_of_lt hmonth (by decide)))
    (hhyphen (paddedText 2 date.civil.day ++ rest))
  have hdayField := readField?_numeral (isNumeral_paddedText 2 date.civil.day)
    (length_paddedText_le (by decide) (Nat.lt_of_le_of_lt hday (by decide))) hends
  have htext : date.text ++ rest = yearText date.civil.year
      ++ '-' :: (paddedText 2 date.civil.month ++ '-' :: (paddedText 2 date.civil.day ++ rest)) := by
    simp [text, civilText]
  have hmark (tail : List Char) : readMark? '-' ('-' :: tail) = some tail :=
    readMark?_cons (by decide) tail
  have hcivil : ofCivil? ⟨date.civil.year, date.civil.month, date.civil.day⟩ = some date :=
    date.ofCivil?_civil
  rw [htext, readFront?]
  simp only [hyearField, hmark, hmonthField, hdayField, hcivil, Option.bind_eq_bind,
    Option.bind_some]
  rfl

/-- A date is read back from its text. -/
theorem ofText?_text (date : Date) : ofText? date.text = some date := by
  have hfront : readFront? (date.text ++ []) = some (date, []) := readFront?_text date (by simp)
  rw [List.append_nil] at hfront
  rw [ofText?, hfront]
  rfl

end Date

end ScanFleet
