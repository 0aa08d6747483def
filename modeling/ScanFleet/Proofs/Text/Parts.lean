import Mathlib.Data.List.DropRight
import ScanFleet.Text.Blank
import ScanFleet.Text.Split

set_option autoImplicit false

/-! # Trimmed texts and the parts of a text

Trimming is told by what it leaves: a text between blanks that neither starts nor ends with one. Cutting
at every separator is `List.splitOn`, which undoes joining. -/

namespace ScanFleet

variable {text core front back : List Char}

/-! ## Trimming -/

theorem trimEnd_eq_rdropWhile (text : List Char) : trimEnd text = text.rdropWhile isBlank := rfl

/-- Blanks around a text that neither starts nor ends with one are dropped, and nothing else. -/
theorem trim_surrounded (hfront : ∀ c ∈ front, isBlank c = true)
    (hback : ∀ c ∈ back, isBlank c = true) (hfirst : ∀ c ∈ core.head?, isBlank c = false)
    (hlast : ∀ c ∈ core.getLast?, isBlank c = false) : trim (front ++ core ++ back) = core := by
  have hstart : trimStart (front ++ core ++ back) = trimStart (core ++ back) := by
    rw [trimStart, List.append_assoc, List.dropWhile_append_of_pos hfront, trimStart]
  cases core with
  | nil =>
    have hnone : trimStart back = [] := List.dropWhile_eq_nil_iff.2 hback
    rw [trim, hstart, List.nil_append, hnone]
    rfl
  | cons c rest =>
    have hkept : trimStart (c :: rest ++ back) = c :: rest ++ back := by
      rw [trimStart, List.cons_append, List.dropWhile_cons_of_neg (by simp [hfirst c rfl])]
    have hend : trimEnd (c :: rest ++ back) = trimEnd (c :: rest) := by
      unfold trimEnd
      rw [List.reverse_append, List.dropWhile_append_of_pos fun d hd =>
        hback d (List.mem_reverse.1 hd)]
    have hself := trim_eq_self hfirst hlast
    rw [trim, trimStart, List.dropWhile_cons_of_neg (by simp [hfirst c rfl])] at hself
    rw [trim, hstart, hkept, hend, hself]

/-- A trimmed text neither starts nor ends with a blank. -/
theorem ends_of_trim_eq_self (h : trim text = text) :
    (∀ c ∈ text.head?, isBlank c = false) ∧ ∀ c ∈ text.getLast?, isBlank c = false := by
  have hshorter : (trimStart text).length ≤ text.length := (List.dropWhile_sublist _).length_le
  have hend : (trimEnd (trimStart text)).length ≤ (trimStart text).length :=
    (List.rdropWhile_prefix _ _).length_le
  have hlength := congrArg List.length h
  rw [trim] at hlength
  have hstart : trimStart text = text :=
    (List.dropWhile_suffix _).eq_of_length (by rw [← trimStart]; omega)
  rw [trim, hstart, trimEnd_eq_rdropWhile, List.rdropWhile_eq_self_iff] at h
  constructor
  · intro c hc
    obtain ⟨rest, rfl⟩ := List.head?_eq_some_iff.1 hc
    rw [trimStart, List.dropWhile_eq_self_iff] at hstart
    simpa using hstart
  · intro c hc
    obtain ⟨rest, rfl⟩ := List.getLast?_eq_some_iff.1 hc
    simpa using h

/-- Blanks around a trimmed text are dropped again. -/
theorem trim_surrounded_of_trimmed (hfront : ∀ c ∈ front, isBlank c = true)
    (hback : ∀ c ∈ back, isBlank c = true) (h : trim core = core) :
    trim (front ++ core ++ back) = core :=
  trim_surrounded hfront hback (ends_of_trim_eq_self h).1 (ends_of_trim_eq_self h).2

/-- Of blanks nothing is left. -/
theorem trim_eq_nil (h : ∀ c ∈ text, isBlank c = true) : trim text = [] := by
  rw [trim, trimStart, List.dropWhile_eq_nil_iff.2 h]
  rfl

/-! ## Cutting -/

theorem cutAt_eq_none_iff {sep : Char} : cutAt sep text = none ↔ sep ∉ text := by
  induction text with
  | nil => simp [cutAt]
  | cons c rest ih =>
    rw [cutAt]
    by_cases h : c = sep
    · simp [h]
    · simp [h, ih, Ne.symm h]

theorem partsAt_eq_splitOn (sep : Char) (text : List Char) : partsAt sep text = text.splitOn sep := by
  induction text with
  | nil => rfl
  | cons c rest ih =>
    rw [partsAt, List.splitOn, List.splitOnP_cons_eq_if_modifyHead, ih, List.splitOn]
    by_cases h : c = sep
    · simp [h]
    · rw [if_neg h, if_neg (by simpa using h)]
      cases hparts : rest.splitOnP (· == sep) with
      | nil => exact absurd hparts (List.splitOnP_ne_nil _ _)
      | cons part parts => rfl

end ScanFleet
