import Mathlib.Data.List.Induction
import ScanFleet.Table

set_option autoImplicit false

/-! # The rows of tables

No two rows of a table have one key. What becomes of rows that are filed one after another. -/

namespace ScanFleet

namespace Table

variable {α κ : Type} [Keyed α κ] [Ord κ] [Std.LawfulEqOrd κ]

theorem pairwise_key_ne (t : Table α) : t.rows.Pairwise fun a b => key a ≠ key b := by
  refine t.ascending.imp fun {a b} hlt hsame => ?_
  have heq : compare (key a) (key b) = .eq := Std.LawfulEqCmp.compare_eq_iff_eq.2 hsame
  rw [heq] at hlt
  cases hlt

variable [DecidableEq κ]

/-- A table is told by what is found in it. -/
theorem ext_get? [Std.TransOrd κ] {a b : Table α} (h : ∀ k, a.get? k = b.get? k) : a = b := by
  have hmem {t : Table α} {row : α} : row ∈ t.rows ↔ t.get? (key row) = some row :=
    ⟨get?_of_mem, mem_of_get?⟩
  have hnodup (t : Table α) : t.rows.Nodup :=
    t.pairwise_key_ne.imp fun hne hsame => hne (congrArg key hsame)
  refine ext_rows (List.Perm.eq_of_pairwise (fun x y _ _ hxy hyx => ?_) a.ascending b.ascending ?_)
  · exact absurd (hxy.symm.trans (Std.OrientedCmp.gt_iff_lt.2 hyx)) nofun
  · refine (List.perm_ext_iff_of_nodup (hnodup a) (hnodup b)).2 fun row => ?_
    rw [hmem, hmem, h]

/-- Of two rows that are inserted under one key the later one stays. -/
theorem insert_insert [Std.TransOrd κ] (t : Table α) {row other : α} (h : key row = key other) :
    (t.insert row).insert other = t.insert other := by
  refine ext_get? fun k => ?_
  rw [get?_insert, get?_insert, get?_insert, h]
  split
  · rfl
  · rfl

/-- A row that is there already changes nothing. -/
theorem insert_of_get? [Std.TransOrd κ] {t : Table α} {k : κ} {row : α} (h : t.get? k = some row) :
    t.insert row = t := by
  refine ext_get? fun l => ?_
  rw [get?_insert, key_of_get? h]
  split
  · rename_i hkey
    rw [← hkey, h]
  · rfl

/-- A row is the only one with its key. -/
theorem rows_filter_key (t : Table α) (k : κ) :
    (t.rows.filter fun row => decide (key row = k)) = (t.get? k).toList := by
  have hdistinct := t.pairwise_key_ne
  unfold get? findRow
  generalize t.rows = rows at hdistinct ⊢
  induction rows with
  | nil => rfl
  | cons first rest ih =>
    obtain ⟨hfirst, hrest⟩ := List.pairwise_cons.1 hdistinct
    by_cases hk : key first = k
    · have hnone : rest.filter (fun row => decide (key row = k)) = [] := by
        refine List.filter_eq_nil_iff.2 fun row hrow => ?_
        rw [decide_eq_true_eq, ← hk]
        exact Ne.symm (hfirst row hrow)
      simp [hk, hnone]
    · simp [hk, ih hrest]

variable [Std.TransOrd κ] {rows : List α} {k : κ}

theorem get?_foldl_insert_of_not (h : ∀ row ∈ rows, key row ≠ k) (t : Table α) :
    (rows.foldl insert t).get? k = t.get? k := by
  induction rows generalizing t with
  | nil => rfl
  | cons first rest ih =>
    rw [List.foldl_cons, ih (fun row hrow => h row (List.mem_cons_of_mem first hrow)), get?_insert,
      if_neg (h first List.mem_cons_self)]

/-- Of rows with different keys each is found. -/
theorem get?_foldl_insert_of_mem (hdistinct : rows.Pairwise fun a b => key a ≠ key b) {row : α}
    (h : row ∈ rows) (t : Table α) : (rows.foldl insert t).get? (key row) = some row := by
  induction rows generalizing t with
  | nil => cases h
  | cons first rest ih =>
    obtain ⟨hfirst, hrest⟩ := List.pairwise_cons.1 hdistinct
    rw [List.foldl_cons]
    rcases List.mem_cons.1 h with rfl | hlater
    · rw [get?_foldl_insert_of_not fun other hother => Ne.symm (hfirst other hother), get?_insert,
        if_pos rfl]
    · exact ih hrest hlater _

/-- Of rows that are filed one after another, the last with a key is found. -/
theorem get?_ofList_eq_some_iff {row : α} :
    (ofList rows).get? k = some row ↔ ∃ earlier later, rows = earlier ++ row :: later
      ∧ key row = k ∧ ∀ other ∈ later, key other ≠ k := by
  constructor
  · intro hget
    induction rows using List.reverseRecOn with
    | nil => cases hget
    | append_singleton rows last ih =>
      rw [ofList, List.foldl_append, List.foldl_cons, List.foldl_nil, get?_insert] at hget
      by_cases hlast : key last = k
      · rw [if_pos hlast] at hget
        obtain rfl := Option.some.inj hget
        exact ⟨rows, [], rfl, hlast, fun other hother => absurd hother List.not_mem_nil⟩
      · rw [if_neg hlast] at hget
        obtain ⟨earlier, later, rfl, hkey, hlater⟩ := ih hget
        refine ⟨earlier, later ++ [last], by simp, hkey, fun other hother => ?_⟩
        rcases List.mem_append.1 hother with hother | hother
        · exact hlater other hother
        · rw [List.mem_singleton.1 hother]
          exact hlast
  · rintro ⟨earlier, later, rfl, hkey, hlater⟩
    rw [ofList, List.foldl_append, List.foldl_cons, get?_foldl_insert_of_not hlater, get?_insert,
      if_pos hkey]

/-- The rows of a table, filed again in any order. -/
theorem ofList_eq_of_perm {t : Table α} (h : rows.Perm t.rows) : ofList rows = t := by
  have hdistinct : rows.Pairwise fun a b => key a ≠ key b :=
    (List.Perm.pairwise_iff (fun hne => Ne.symm hne) h).2 t.pairwise_key_ne
  refine ext_get? fun k => ?_
  cases hget : t.get? k with
  | some row =>
    obtain rfl := key_of_get? hget
    exact get?_foldl_insert_of_mem hdistinct (h.mem_iff.2 (mem_of_get? hget)) empty
  | none =>
    rw [ofList, get?_foldl_insert_of_not, get?_empty]
    intro row hrow hkey
    have hfound := get?_of_mem (h.mem_iff.1 hrow)
    rw [hkey, hget] at hfound
    cases hfound

/-- The rows of a table, filed again. -/
theorem foldl_insert_rows (t : Table α) : t.rows.foldl insert empty = t :=
  ofList_eq_of_perm (.refl _)

/-- A row with a new key makes a table larger by one. -/
theorem size_insert {t : Table α} {row : α} (h : t.get? (key row) = none) :
    (t.insert row).size = t.size + 1 := by
  show (insertRow row t.rows).length = t.rows.length + 1
  have hnone : findRow (key row) t.rows = none := h
  generalize t.rows = rows at hnone ⊢
  induction rows with
  | nil => rfl
  | cons first rest ih =>
    obtain ⟨hfirst, hrest⟩ : key first ≠ key row ∧ findRow (key row) rest = none := by
      simpa [findRow] using hnone
    rw [insertRow]
    split
    · rfl
    · rename_i heq
      exact absurd (Std.LawfulEqCmp.compare_eq_iff_eq.1 heq).symm hfirst
    · rw [List.length_cons, ih hrest, List.length_cons]

theorem has_insert_self (t : Table α) (row : α) : (t.insert row).has (key row) = true := by
  rw [has_insert, decide_eq_true rfl, Bool.true_or]

theorem has_foldl_insert {t : Table α} (h : t.has k = true ∨ ∃ row ∈ rows, key row = k) :
    (rows.foldl insert t).has k = true := by
  induction rows generalizing t with
  | nil =>
    rcases h with hold | ⟨row, hrow, -⟩
    · exact hold
    · cases hrow
  | cons first rest ih =>
    refine ih ?_
    rcases h with hold | ⟨row, hrow, rfl⟩
    · left
      rw [has_insert, hold, Bool.or_true]
    · rcases List.mem_cons.1 hrow with rfl | hrow
      · exact .inl (t.has_insert_self row)
      · exact .inr ⟨row, hrow, rfl⟩

end Table

end ScanFleet
