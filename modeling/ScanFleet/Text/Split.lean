set_option autoImplicit false

/-! # Cutting a text at a separator -/

namespace ScanFleet

/-- The parts before and after the first `sep`, if it occurs. -/
def cutAt (sep : Char) : List Char → Option (List Char × List Char)
  | [] => none
  | c :: rest =>
    if c = sep then some ([], rest)
    else (cutAt sep rest).map fun (before, after) => (c :: before, after)

/-- The parts between the occurrences of `sep`: one more than there are occurrences. -/
def partsAt (sep : Char) : List Char → List (List Char)
  | [] => [[]]
  | c :: rest =>
    if c = sep then [] :: partsAt sep rest
    else
      match partsAt sep rest with
      | [] => [[c]]
      | part :: parts => (c :: part) :: parts

/-- What follows `lead` in a text that starts with it. -/
def afterLead : List Char → List Char → Option (List Char)
  | [], text => some text
  | _ :: _, [] => none
  | a :: lead, c :: text => if a = c then afterLead lead text else none

theorem afterLead_eq_some_iff {lead text rest : List Char} :
    afterLead lead text = some rest ↔ text = lead ++ rest := by
  induction lead generalizing text with
  | nil => simp [afterLead]
  | cons a lead ih =>
    cases text with
    | nil => simp [afterLead]
    | cons c text => by_cases h : a = c <;> simp [afterLead, h, ih]; intro he; exact absurd he.symm h

theorem cutAt_eq_some_iff {sep : Char} {text before after : List Char} :
    cutAt sep text = some (before, after) ↔ text = before ++ sep :: after ∧ sep ∉ before := by
  induction text generalizing before with
  | nil => simp [cutAt]
  | cons c rest ih =>
    rw [cutAt]
    by_cases h : c = sep
    · subst h
      cases before with
      | nil => simp
      | cons b before => simp; intro hb; simp [hb]
    · cases before with
      | nil => simp [h]
      | cons b before =>
        simp only [h, if_false, Option.map_eq_some_iff, Prod.exists, Prod.mk.injEq, List.cons.injEq]
        constructor
        · rintro ⟨x, y, hxy, ⟨rfl, rfl⟩, rfl⟩
          obtain ⟨rfl, hn⟩ := ih.1 hxy
          simpa using ⟨Ne.symm h, hn⟩
        · rintro ⟨⟨rfl, rfl⟩, hn⟩
          exact ⟨before, after, ih.2 ⟨rfl, fun hm => hn (List.mem_cons_of_mem _ hm)⟩, ⟨rfl, rfl⟩, rfl⟩

end ScanFleet
