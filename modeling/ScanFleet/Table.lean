set_option autoImplicit false

/-! # Keyed tables

A table holds records that carry their own key: a device its uuid, an instance its name. Rows are
kept in strictly increasing key order, so a key occurs at most once and two tables with the same
rows are equal. Every operation is described by what it does to `get?`. -/

namespace ScanFleet

/-- Records that carry the key under which a table files them. -/
class Keyed (α : Type) (κ : outParam Type) where
  /-- The key of a record. -/
  key : α → κ

export Keyed (key)

/-- A text is filed under itself, so a `Table String` is a set of texts. -/
instance : Keyed String String := ⟨id⟩

variable {α κ : Type} [Keyed α κ] [Ord κ] [DecidableEq κ]

/-! ## Rows -/

/-- Rows in strictly increasing key order. -/
def Ascending (rows : List α) : Prop :=
  rows.Pairwise fun a b => compare (key a) (key b) = .lt

/-- The row with key `k`, if there is one. -/
def findRow (k : κ) (rows : List α) : Option α :=
  rows.find? fun row => decide (key row = k)

/-- Files `row` in key order, in the place of a row with the same key. -/
def insertRow (row : α) : List α → List α
  | [] => [row]
  | first :: rest =>
    match compare (key row) (key first) with
    | .lt => row :: first :: rest
    | .eq => row :: rest
    | .gt => first :: insertRow row rest

omit [DecidableEq κ] in
theorem mem_insertRow {row other : α} {rows : List α} (h : other ∈ insertRow row rows) :
    other = row ∨ other ∈ rows := by
  induction rows with
  | nil => simpa [insertRow] using h
  | cons first rest ih =>
    rw [insertRow] at h
    split at h <;> grind

omit [DecidableEq κ] in
theorem ascending_insertRow [Std.TransOrd κ] [Std.LawfulEqOrd κ] (row : α) {rows : List α}
    (h : Ascending rows) : Ascending (insertRow row rows) := by
  induction rows with
  | nil => simp [insertRow, Ascending]
  | cons first rest ih =>
    rw [Ascending, List.pairwise_cons] at h
    rw [insertRow]
    split <;> rename_i hc
    · refine List.pairwise_cons.2 ⟨fun other ho => ?_, List.pairwise_cons.2 h⟩
      rcases List.mem_cons.1 ho with rfl | ho
      · exact hc
      · exact Std.TransCmp.lt_trans hc (h.1 other ho)
    · have hk : key row = key first := Std.LawfulEqCmp.compare_eq_iff_eq.1 hc
      exact List.pairwise_cons.2 ⟨fun other ho => hk ▸ h.1 other ho, h.2⟩
    · refine List.pairwise_cons.2 ⟨fun other ho => ?_, ih h.2⟩
      rcases mem_insertRow ho with rfl | ho
      · exact Std.OrientedCmp.gt_iff_lt.1 hc
      · exact h.1 other ho

theorem findRow_insertRow [Std.LawfulEqOrd κ] (k : κ) (row : α) (rows : List α) :
    findRow k (insertRow row rows) = if key row = k then some row else findRow k rows := by
  induction rows with
  | nil => by_cases h : key row = k <;> simp [insertRow, findRow, h]
  | cons first rest ih =>
    rw [insertRow]
    split <;> rename_i hc
    · by_cases h : key row = k <;> simp [findRow, h]
    · have hk : key row = key first := Std.LawfulEqCmp.compare_eq_iff_eq.1 hc
      by_cases h : key row = k
      · simp [findRow, h]
      · simp [findRow, h, ← hk]
    · have hne : key row ≠ key first := fun he => by
        simp [Std.LawfulEqCmp.compare_eq_iff_eq.2 he] at hc
      simp only [findRow] at ih ⊢
      by_cases hf : key first = k
      · simp [hf, show key row ≠ k from fun he => hne (he.trans hf.symm)]
      · simp [hf, ih]

/-! ## Tables -/

/-- Records filed under their own keys, in increasing key order. -/
structure Table (α : Type) {κ : Type} [Keyed α κ] [Ord κ] where
  /-- The rows, in strictly increasing key order. -/
  rows : List α
  ascending : Ascending rows := by exact List.Pairwise.nil

namespace Table

/-- The table without rows. -/
def empty : Table α := ⟨[], List.Pairwise.nil⟩

instance : EmptyCollection (Table α) := ⟨empty⟩

instance : Inhabited (Table α) := ⟨empty⟩

instance [DecidableEq α] : DecidableEq (Table α) := fun a b =>
  if h : a.rows = b.rows then
    isTrue (by cases a; cases b; cases h; rfl)
  else
    isFalse fun he => h (he ▸ rfl)

omit [DecidableEq κ] in
@[ext] theorem ext_rows {a b : Table α} (h : a.rows = b.rows) : a = b := by
  cases a; cases b; cases h; rfl

/-- How many rows the table has. -/
def size (t : Table α) : Nat := t.rows.length

/-- The row filed under `k`. -/
def get? (t : Table α) (k : κ) : Option α := findRow k t.rows

/-- Whether a row is filed under `k`. -/
def has (t : Table α) (k : κ) : Bool := (t.get? k).isSome

/-- Files `row` under its key, in the place of the row that was there. -/
def insert [Std.TransOrd κ] [Std.LawfulEqOrd κ] (t : Table α) (row : α) : Table α :=
  ⟨insertRow row t.rows, ascending_insertRow row t.ascending⟩

/-- The rows that pass `p`. -/
def filter (t : Table α) (p : α → Bool) : Table α :=
  ⟨t.rows.filter p, t.ascending.sublist List.filter_sublist⟩

/-- The table without the row filed under `k`. -/
def erase (t : Table α) (k : κ) : Table α := t.filter fun row => decide (key row ≠ k)

/-- Edits every row in place; an edit keeps the key. -/
def map (t : Table α) (f : α → α) (h : ∀ row, key (f row) = key row) : Table α :=
  ⟨t.rows.map f, List.pairwise_map.2 (t.ascending.imp fun hab => by rw [h, h]; exact hab)⟩

/-- Files rows one after another: of several rows with one key, the last stays. -/
def ofList [Std.TransOrd κ] [Std.LawfulEqOrd κ] (rows : List α) : Table α :=
  rows.foldl insert empty

/-! ## What operations do to `get?` -/

@[simp] theorem get?_empty (k : κ) : (empty : Table α).get? k = none := rfl

theorem get?_insert [Std.TransOrd κ] [Std.LawfulEqOrd κ] (t : Table α) (row : α) (k : κ) :
    (t.insert row).get? k = if key row = k then some row else t.get? k :=
  findRow_insertRow k row t.rows

theorem get?_insert_self [Std.TransOrd κ] [Std.LawfulEqOrd κ] (t : Table α) (row : α) :
    (t.insert row).get? (key row) = some row := (t.get?_insert row (key row)).trans (if_pos rfl)

theorem get?_filter (t : Table α) (p : α → Bool) (k : κ) :
    (t.filter p).get? k = t.rows.find? fun row => p row && decide (key row = k) := by
  simp [get?, filter, findRow, List.find?_filter]

theorem get?_erase (t : Table α) (k l : κ) :
    (t.erase k).get? l = if k = l then none else t.get? l := by
  rw [erase, get?_filter]
  split <;> rename_i h
  · subst h; simp
  · simp only [get?, findRow]
    congr 1
    funext row
    by_cases hr : key row = l
    · simp [hr, Ne.symm h]
    · simp [hr]

theorem get?_map (t : Table α) (f : α → α) (h : ∀ row, key (f row) = key row) (k : κ) :
    (t.map f h).get? k = (t.get? k).map f := by
  simp only [get?, map, findRow, List.find?_map]
  congr 2
  funext row
  simp [h]

/-- A row that is found carries the key it was asked by. -/
theorem key_of_get? {t : Table α} {k : κ} {row : α} (h : t.get? k = some row) : key row = k := by
  simpa using List.find?_some h

theorem mem_of_get? {t : Table α} {k : κ} {row : α} (h : t.get? k = some row) : row ∈ t.rows :=
  List.mem_of_find?_eq_some h

/-- Every row is found under its own key. -/
theorem get?_of_mem [Std.LawfulEqOrd κ] {t : Table α} {row : α} (h : row ∈ t.rows) :
    t.get? (key row) = some row := by
  obtain ⟨rows, asc⟩ := t
  simp only [get?, findRow] at h ⊢
  induction rows with
  | nil => simp at h
  | cons first rest ih =>
    rw [Ascending, List.pairwise_cons] at asc
    rcases List.mem_cons.1 h with rfl | hm
    · simp
    · have hlt := asc.1 row hm
      have hne : key first ≠ key row := fun he => by
        simp [Std.LawfulEqCmp.compare_eq_iff_eq.2 he] at hlt
      simp [hne, ih asc.2 hm]

/-! ## What operations do to `has` -/

theorem has_insert [Std.TransOrd κ] [Std.LawfulEqOrd κ] (t : Table α) (row : α) (k : κ) :
    (t.insert row).has k = (decide (key row = k) || t.has k) := by
  rw [has, get?_insert]
  by_cases h : key row = k
  · simp [h]
  · simp [h, has]

theorem has_erase (t : Table α) (k l : κ) : (t.erase k).has l = (decide (k ≠ l) && t.has l) := by
  rw [has, get?_erase]
  by_cases h : k = l
  · simp [h]
  · simp [h, has]

end Table

end ScanFleet
