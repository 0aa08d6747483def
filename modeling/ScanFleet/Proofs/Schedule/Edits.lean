import ScanFleet.Proofs.Schedule.Run

set_option autoImplicit false

/-! # Edits of a schedule

An edit takes the old rule out of force and then puts the new one in. The new rule is looked at first,
so that one which is not valid costs nothing. Its id is looked at only when the old rule is gone: if a
third rule has that id, the edit is refused and the old rule is lost (`Schedule.edit_of_clashes`). This
is the one way in which an edit is left half done (`Schedule.editsWhole_iff`). -/

namespace ScanFleet

namespace Schedule

variable {s : Schedule} {old : UInt32} {a : Assignment}

theorem rule?_eq_none_iff {id : UInt32} : s.rule? id = none ↔ ∀ b ∈ s.rules, b.id ≠ id := by
  simp [rule?]

/-- The schedule without the rule of an id. -/
def without (s : Schedule) (id : UInt32) : Schedule :=
  { s with rules := s.rules.filter (·.id != id) }

theorem mem_without_iff {id : UInt32} {b : Assignment} :
    b ∈ (s.without id).rules ↔ b ∈ s.rules ∧ b.id ≠ id := by
  simp [without]

/-- Taking a rule out that is in force makes another schedule. -/
theorem without_ne_of_mem {b : Assignment} (hmem : b ∈ s.rules) : s.without b.id ≠ s := by
  intro hsame
  have hgone : b ∉ (s.without b.id).rules := fun hkept => (mem_without_iff.1 hkept).2 rfl
  rw [hsame] at hgone
  exact hgone hmem

theorem delete_of_mem {b : Assignment} (hmem : b ∈ s.rules) :
    s.delete b.id = .ok (s.without b.id) := by
  have hpresent : ¬ (s.rule? b.id).isNone = true := by
    rw [Option.isNone_iff_eq_none, rule?_eq_none_iff]
    exact fun hnone => hnone b hmem rfl
  rw [delete, if_neg hpresent, without]

theorem delete_of_absent {id : UInt32} (habsent : ∀ b ∈ s.rules, b.id ≠ id) :
    s.delete id = .error (.assignmentNotFound id) := by
  rw [delete, rule?_eq_none_iff.2 habsent]
  rfl

theorem add_of_new (hvalid : a.IsValid) (hnew : ∀ b ∈ s.rules, b.id ≠ a.id) :
    s.add a = .ok { s with rules := s.rules ++ [a] } := by
  have hfault : a.fault? = none := hvalid
  rw [add, hfault, rule?_eq_none_iff.2 hnew]
  rfl

theorem add_of_taken {b : Assignment} (hvalid : a.IsValid) (hmem : b ∈ s.rules)
    (htaken : b.id = a.id) :
    s.add a = .error (.invalidRequest ("assignment " ++ toString a.id ++ " already exists")) := by
  have hfault : a.fault? = none := hvalid
  have hsome : (s.rule? a.id).isSome = true := by
    rw [← Option.ne_none_iff_isSome, ne_eq, rule?_eq_none_iff]
    exact fun hnone => hnone b hmem htaken
  rw [add, hfault]
  exact if_pos hsome

/-! ## What an edit does -/

/-- The new rule would be accepted and the old one is in force, but a third rule has the id of the
    new one. -/
structure Clashes (s : Schedule) (old : UInt32) (a : Assignment) : Prop where
  valid : a.IsValid
  present : ∃ b ∈ s.rules, b.id = old
  taken : ∃ b ∈ s.rules, b.id ≠ old ∧ b.id = a.id

/-- An edit that clashes is refused and takes the old rule out of force all the same. -/
theorem edit_of_clashes (h : s.Clashes old a) :
    s.edit old a
      = (.error (.invalidRequest ("assignment " ++ toString a.id ++ " already exists")),
        s.without old) := by
  have hfault : a.fault? = none := h.valid
  obtain ⟨b, hb, rfl⟩ := h.present
  obtain ⟨c, hc, hother, htaken⟩ := h.taken
  rw [edit, hfault, delete_of_mem hb]
  dsimp only
  rw [add_of_taken h.valid (mem_without_iff.2 ⟨hc, hother⟩) htaken]

/-- An edit that does not clash is refused and leaves the schedule as it is, or it puts the new rule
    last in the place of the old one. -/
theorem edit_cases (h : ¬ s.Clashes old a) :
    (∃ error, s.edit old a = (.error error, s))
      ∨ s.edit old a = (.ok (), { s with rules := (s.without old).rules ++ [a] }) := by
  cases hfault : a.fault? with
  | some fault =>
    left
    rw [edit, hfault]
    exact ⟨_, rfl⟩
  | none =>
    by_cases hpresent : ∃ b ∈ s.rules, b.id = old
    · -- the one rule that could have the id of the new one is gone
      have hnew : ∀ b ∈ (s.without old).rules, b.id ≠ a.id := by
        intro b hb htaken
        obtain ⟨hmem, hother⟩ := mem_without_iff.1 hb
        exact h ⟨hfault, hpresent, b, hmem, hother, htaken⟩
      obtain ⟨b, hb, rfl⟩ := hpresent
      right
      rw [edit, hfault, delete_of_mem hb]
      dsimp only
      rw [add_of_new hfault hnew]
      rfl
    · have habsent : ∀ b ∈ s.rules, b.id ≠ old := fun b hb heq => hpresent ⟨b, hb, heq⟩
      left
      rw [edit, hfault, delete_of_absent habsent]
      exact ⟨_, rfl⟩

/-- An edit is made as a whole or not at all: when it is refused, the schedule is what it was; when it
    is made, the old rule is gone and the new one is in force, and no two rules have one id. -/
def EditsWhole (s : Schedule) (old : UInt32) (a : Assignment) : Prop :=
  match s.edit old a with
  | (.error _, t) => t = s
  | (.ok (), t) => t.rules = (s.without old).rules ++ [a] ∧ t.Distinct

/-- An edit is made as a whole or not at all unless it clashes. -/
theorem editsWhole_iff (h : s.Distinct) (old : UInt32) (a : Assignment) :
    s.EditsWhole old a ↔ ¬ s.Clashes old a := by
  constructor
  · intro hwhole hclashes
    obtain ⟨b, hb, rfl⟩ := hclashes.present
    rw [EditsWhole, edit_of_clashes hclashes] at hwhole
    exact without_ne_of_mem hb hwhole
  · intro hclear
    have hdistinct : (s.edit old a).2.Distinct := distinct_edit h
    unfold EditsWhole
    obtain ⟨error, hrefused⟩ | hmade := edit_cases hclear
    · rw [hrefused]
    · rw [hmade] at hdistinct ⊢
      exact ⟨rfl, hdistinct⟩

/-- A rule for the day and one for the night. -/
def dayAndNight : Schedule where
  rules := [{ id := 1, target := "Day", device := some "dev-1", time := 100 },
    { id := 2, target := "Night", device := some "dev-1", time := 200 }]

/-- The rule for the day at a later time, under an id of the caller's choice. -/
def laterDay (id : UInt32) : Assignment :=
  { id, target := "Day", device := some "dev-1", time := 300 }

theorem distinct_dayAndNight : dayAndNight.Distinct := by
  unfold Distinct
  decide

/-- The rule for the day can be edited under its own id. -/
theorem editsWhole_dayAndNight :
    dayAndNight.Distinct ∧ dayAndNight.EditsWhole 1 (laterDay 1) := by
  refine ⟨distinct_dayAndNight,
    (editsWhole_iff distinct_dayAndNight 1 (laterDay 1)).2 fun hclashes => ?_⟩
  obtain ⟨b, -, hother, hsame⟩ := hclashes.taken
  exact hother hsame

/-- The rule for the day is lost when it is edited under the id of the rule for the night: the edit is
    refused, and only the rule for the night is left. -/
theorem edit_loses_day :
    dayAndNight.Distinct ∧ ¬ dayAndNight.EditsWhole 1 (laterDay 2)
      ∧ (∃ error, (dayAndNight.edit 1 (laterDay 2)).1 = .error error)
      ∧ (dayAndNight.edit 1 (laterDay 2)).2.rules.map (·.target) = ["Night"] := by
  have hclashes : dayAndNight.Clashes 1 (laterDay 2) :=
    ⟨by decide, ⟨_, List.mem_cons_self, rfl⟩,
      ⟨_, List.mem_cons_of_mem _ List.mem_cons_self, by decide, rfl⟩⟩
  have hedit := edit_of_clashes hclashes
  refine ⟨distinct_dayAndNight, fun hwhole => ?_, ⟨_, congrArg Prod.fst hedit⟩, by decide⟩
  rw [EditsWhole, hedit] at hwhole
  exact absurd (congrArg (List.length ·.rules) hwhole) (by decide)

end Schedule

end ScanFleet
