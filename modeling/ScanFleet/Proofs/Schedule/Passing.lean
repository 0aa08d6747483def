import ScanFleet.Schedule

set_option autoImplicit false

/-! # What a tick passes

`Schedule.tick` compares seconds of the day and, now and then, dates. Here the same is said on the
line of moments. A moment is a second of a day, and a clock that shows a moment has shown every
second of the day once within the last day. A tick that is not held **passes** the moments since
the clock last showed the second of the watermark (`Watermark.Passes`), and it fires a clock rule
for a date exactly when it passes the time of the rule on that date (`Schedule.mem_tick_iff`).

How far back the watermark lies, and whether it lies back at all, does not matter to what is passed:
only its second does. A tick within a day of the watermark passes what lies between the two; every
other tick passes less, or passes again what was passed before. -/

namespace ScanFleet

/-- The calendar reaches a day exactly when some date has it. -/
theorem Date.ofDay?_eq_some_iff {day : Int} {date : Date} : ofDay? day = some date ↔ date.day = day := by
  unfold ofDay?
  constructor
  · intro h
    split at h
    · rw [← Option.some.inj h]
    · cases h
  · intro h
    subst h
    rw [dif_pos ⟨date.first_le, date.le_last⟩]

/-! ## Moments -/

/-- A second of a day; days are counted from 1970-01-01. -/
structure Moment where
  day : Int
  second : Nat
  deriving DecidableEq, Repr

namespace Moment

instance : LT Moment := ⟨fun a b => a.day < b.day ∨ a.day = b.day ∧ a.second < b.second⟩

instance : LE Moment := ⟨fun a b => a.day < b.day ∨ a.day = b.day ∧ a.second ≤ b.second⟩

theorem lt_iff {a b : Moment} : a < b ↔ a.day < b.day ∨ a.day = b.day ∧ a.second < b.second :=
  Iff.rfl

theorem le_iff {a b : Moment} : a ≤ b ↔ a.day < b.day ∨ a.day = b.day ∧ a.second ≤ b.second :=
  Iff.rfl

instance (a b : Moment) : Decidable (a < b) := decidable_of_iff _ lt_iff.symm

instance (a b : Moment) : Decidable (a ≤ b) := decidable_of_iff _ le_iff.symm

theorem not_le {a b : Moment} : ¬ a ≤ b ↔ b < a := by
  rw [le_iff, lt_iff]
  omega

theorem not_lt {a b : Moment} : ¬ a < b ↔ b ≤ a := by
  rw [le_iff, lt_iff]
  omega

theorem le_refl (a : Moment) : a ≤ a := Or.inr ⟨rfl, Nat.le_refl _⟩

theorem le_trans {a b c : Moment} (hab : a ≤ b) (hbc : b ≤ c) : a ≤ c := by
  rw [le_iff] at *
  omega

theorem lt_of_le_of_lt {a b c : Moment} (hab : a ≤ b) (hbc : b < c) : a < c := by
  rw [le_iff] at hab
  rw [lt_iff] at *
  omega

/-- The last moment up to `m` at which the clock shows a second of the day. -/
def lastShowing (m : Moment) (second : Nat) : Moment :=
  if second ≤ m.second then ⟨m.day, second⟩ else ⟨m.day - 1, second⟩

/-- `lastShowing` is the greatest of the moments up to `m` that show the second. -/
theorem le_lastShowing_iff {k m : Moment} : k ≤ m.lastShowing k.second ↔ k ≤ m := by
  unfold lastShowing
  rw [le_iff, le_iff]
  split
  · dsimp only
    omega
  · dsimp only
    omega

theorem lastShowing_le (m : Moment) (second : Nat) : m.lastShowing second ≤ m := by
  unfold lastShowing
  rw [le_iff]
  split
  · exact Or.inr ⟨rfl, by assumption⟩
  · exact Or.inl (by dsimp only; omega)

/-- The clock shows every second of the day once within a day. -/
theorem eq_lastShowing {k m : Moment} {second : Nat} (h : m.lastShowing second < k) (hk : k ≤ m) :
    k = m.lastShowing k.second := by
  rw [lt_iff] at h
  rw [le_iff] at hk
  obtain ⟨day, shown⟩ := k
  unfold lastShowing at h ⊢
  dsimp only at h hk ⊢
  split at h <;> split <;> simp only [mk.injEq, and_true] <;> dsimp only at h <;> omega

end Moment

/-! ## Ticks and watermarks -/

namespace Watermark

/-- The moment of a watermark or of a tick. -/
def moment (w : Watermark) : Moment := ⟨w.date.day, w.second⟩

/-- Whether a watermark holds against a tick: the clock went back within the day. -/
def Holds (mark now : Watermark) : Prop := mark.date = now.date ∧ now.second < mark.second

instance (mark now : Watermark) : Decidable (mark.Holds now) := inferInstanceAs (Decidable (_ ∧ _))

/-- Whether a tick passes a moment: the clock has shown it since it last showed the second of the
    watermark. The first tick passes nothing, nor does a tick that the watermark holds against. -/
def Passes : Option Watermark → Watermark → Moment → Prop
  | none, _, _ => False
  | some mark, now, m =>
    ¬ mark.Holds now ∧ now.moment.lastShowing mark.second < m ∧ m ≤ now.moment

instance (mark : Option Watermark) (now : Watermark) (m : Moment) : Decidable (Passes mark now m) :=
  match mark with
  | none => inferInstanceAs (Decidable False)
  | some _ => inferInstanceAs (Decidable (_ ∧ _ ∧ _))

/-- A tick whose second is not before that of the watermark passes what lies between them. -/
theorem passes_of_le {mark now : Watermark} {m : Moment} (h : mark.second ≤ now.second) :
    Passes (some mark) now m
      ↔ m.day = now.date.day ∧ mark.second < m.second ∧ m.second ≤ now.second := by
  have hshown : now.moment.lastShowing mark.second = ⟨now.date.day, mark.second⟩ := if_pos h
  rw [Passes, hshown, Moment.lt_iff, Moment.le_iff]
  simp only [Holds, moment]
  omega

/-- A tick on another date whose second lies before that of the watermark passes the rest of the day
    before and the new day so far. -/
theorem passes_of_lt {mark now : Watermark} {m : Moment} (h : now.second < mark.second)
    (hdate : mark.date ≠ now.date) :
    Passes (some mark) now m ↔ m.day = now.date.day - 1 ∧ mark.second < m.second
      ∨ m.day = now.date.day ∧ m.second ≤ now.second := by
  have hshown : now.moment.lastShowing mark.second = ⟨now.date.day - 1, mark.second⟩ :=
    if_neg (Nat.not_le.2 h)
  have hmoves : ¬ mark.Holds now := fun hheld => hdate hheld.1
  rw [Passes, hshown, Moment.lt_iff, Moment.le_iff]
  simp only [hmoves, not_false_iff, true_and, moment]
  omega

theorem not_passes_of_holds {mark now : Watermark} {m : Moment} (h : mark.Holds now) :
    ¬ Passes (some mark) now m :=
  fun hpasses => hpasses.1 h

/-- Of the moments that show one second, a tick passes at most one. -/
theorem Passes.eq_lastShowing {mark : Option Watermark} {now : Watermark} {m : Moment}
    (h : Passes mark now m) : m = now.moment.lastShowing m.second := by
  cases mark with
  | none => exact h.elim
  | some mark => exact Moment.eq_lastShowing h.2.1 h.2.2

/-- The watermark that a tick leaves behind. -/
def next : Option Watermark → Watermark → Watermark
  | none, now => now
  | some mark, now => if mark.Holds now then mark else now

/-- The ticks of a run that pass a moment. -/
def passing (mark : Option Watermark) (m : Moment) : List Watermark → List Watermark
  | [] => []
  | now :: rest =>
    if Passes mark now m then now :: passing (next mark now) m rest
    else passing (next mark now) m rest

end Watermark

namespace Schedule

/-! ## What a tick fires -/

theorem mem_clockRules_iff {s : Schedule} {a : Assignment} :
    a ∈ s.clockRules ↔ a ∈ s.rules ∧ a.enabled = true ∧ a.time ≠ 0 := by
  simp [clockRules, Assignment.onCompletion]

theorem fallsWithin_iff {a : Assignment} {date : Date} {since upTo : Nat} :
    fallsWithin a date since upTo = true
      ↔ since < a.time.toNat ∧ a.time.toNat ≤ upTo ∧ a.holdsOn date = true := by
  simp [fallsWithin, and_assoc]

theorem fallsAfter_iff {a : Assignment} {date : Date} {since : Nat} :
    fallsAfter a date since = true ↔ since < a.time.toNat ∧ a.holdsOn date = true := by
  simp [fallsAfter]

theorem fallsUpTo_iff {a : Assignment} {date : Date} {upTo : Nat} :
    fallsUpTo a date upTo = true ↔ a.time.toNat ≤ upTo ∧ a.holdsOn date = true := by
  simp [fallsUpTo]

/-- A tick fires the clock rules that hold on a date on which it passes their time. -/
theorem mem_tick_iff {s : Schedule} {now : Watermark} {a : Assignment} :
    a ∈ (s.tick now.date now.second).1 ↔
      a ∈ s.clockRules ∧ ∃ e : Date, a.holdsOn e = true
        ∧ Watermark.Passes s.watermark now ⟨e.day, a.time.toNat⟩ := by
  unfold tick
  cases s.watermark with
  | none => simp [Watermark.Passes]
  | some mark =>
    by_cases hle : mark.second ≤ now.second
    · simp only [if_pos hle, List.mem_filter, fallsWithin_iff, Watermark.passes_of_le hle]
      refine and_congr_right fun _ => ⟨?_, ?_⟩
      · rintro ⟨hsince, hupTo, hon⟩
        exact ⟨now.date, hon, rfl, hsince, hupTo⟩
      · rintro ⟨e, hon, hday, hsince, hupTo⟩
        have he : e = now.date := Date.ext_day hday
        exact ⟨hsince, hupTo, he ▸ hon⟩
    · have hlt : now.second < mark.second := Nat.not_le.1 hle
      by_cases hdate : mark.date = now.date
      · have hheld : mark.Holds now := ⟨hdate, hlt⟩
        simp [if_neg hle, if_pos hdate, Watermark.not_passes_of_holds hheld]
      · simp only [if_neg hle, if_neg hdate, List.mem_filter, Bool.or_eq_true, Option.any_eq_true,
          fallsAfter_iff, fallsUpTo_iff, Watermark.passes_of_lt hlt hdate, Date.before?,
          Date.ofDay?_eq_some_iff]
        refine and_congr_right fun _ => ⟨?_, ?_⟩
        · -- the tail of the day before, or the head of the new day
          rintro (⟨yesterday, hday, hafter, hon⟩ | ⟨hupTo, hon⟩)
          · exact ⟨yesterday, hon, Or.inl ⟨hday, hafter⟩⟩
          · exact ⟨now.date, hon, Or.inr ⟨rfl, hupTo⟩⟩
        · rintro ⟨e, hon, ⟨hday, hafter⟩ | ⟨hday, hupTo⟩⟩
          · exact Or.inl ⟨e, hday, hafter, hon⟩
          · have he : e = now.date := Date.ext_day hday
            exact Or.inr ⟨hupTo, he ▸ hon⟩

/-- A tick moves the watermark, unless it holds. -/
theorem watermark_tick (s : Schedule) (now : Watermark) :
    (s.tick now.date now.second).2.watermark = some (Watermark.next s.watermark now) := by
  unfold tick
  cases hmark : s.watermark with
  | none => rfl
  | some mark =>
    by_cases hle : mark.second ≤ now.second
    · have hmoves : ¬ mark.Holds now := fun h => absurd h.2 (Nat.not_lt.2 hle)
      simp [Watermark.next, hle, hmoves]
    · by_cases hdate : mark.date = now.date
      · have hheld : mark.Holds now := ⟨hdate, Nat.not_le.1 hle⟩
        simp [Watermark.next, hle, hdate, hheld, hmark]
      · have hmoves : ¬ mark.Holds now := fun h => hdate h.1
        simp [Watermark.next, hle, hdate, hmoves]

end Schedule

end ScanFleet
