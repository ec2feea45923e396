import Mathlib.Data.List.Nodup

/-- A table is the list of its rows, oldest first. -/
abbrev Rows (α : Type) := List α

namespace Rows

variable {α β κ : Type}

/-- `UPDATE … SET change WHERE selected`. -/
def update (rows : Rows α) (selected : α → Bool) (change : α → α) : Rows α :=
  rows.map fun row => if selected row then change row else row

@[simp] theorem update_length (rows : Rows α) (selected : α → Bool) (change : α → α) :
    (update rows selected change).length = rows.length := by
  simp [update]

theorem mem_update {rows : Rows α} {selected : α → Bool} {change : α → α} {row : α} :
    row ∈ update rows selected change ↔
      (row ∈ rows ∧ selected row = false) ∨ ∃ old ∈ rows, selected old = true ∧
      row = change old := by
  simp only [update, List.mem_map]
  constructor
  · rintro ⟨old, hold, rfl⟩
    cases h : selected old with
    | true => exact Or.inr ⟨old, hold, h, by simp⟩
    | false => exact Or.inl ⟨by simpa using hold, by simpa using h⟩
  · rintro (⟨hrow, h⟩ | ⟨old, hold, h, rfl⟩)
    · exact ⟨row, hrow, by simp [h]⟩
    · exact ⟨old, hold, by simp [h]⟩

/-- A row with a property that the change never gives is an earlier row. -/
theorem mem_of_update {rows : Rows α} {selected : α → Bool} {change : α → α} {P : α → Prop}
    (h : ∀ row, ¬P (change row)) {row : α} (hrow : row ∈ update rows selected change) (hP : P row) :
    row ∈ rows := by
  rcases mem_update.mp hrow with ⟨hrow, _⟩ | ⟨old, _, _, rfl⟩
  · exact hrow
  · exact absurd hP (h old)

/-- An update leaves every column that the change leaves. -/
theorem update_map {rows : Rows α} {selected : α → Bool} {change : α → α} {column : α → β}
    (h : ∀ row, column (change row) = column row) :
    (update rows selected change).map column = rows.map column := by
  rw [update, List.map_map]
  apply List.map_congr_left
  intro row _
  by_cases hs : selected row <;> simp [hs, h]

theorem update_map_append_nil {rows : Rows α} {selected : α → Bool} {change : α → α}
    {column : α → β} (h : ∀ row, column (change row) = column row) :
    (update rows selected change).map column = rows.map column ++ [] := by
  rw [update_map h, List.append_nil]

theorem update_append (rows more : Rows α) (selected : α → Bool) (change : α → α) :
    update (rows ++ more) selected change =
      update rows selected change ++ update more selected change := by
  simp [update]

theorem update_eq_self {rows : Rows α} {selected : α → Bool} {change : α → α}
    (h : ∀ row ∈ rows, selected row = false) : update rows selected change = rows := by
  have hmap : rows.map (fun row => if selected row then change row else row) = rows.map id :=
    List.map_congr_left fun row hrow => by simp [h row hrow]
  rw [update, hmap, List.map_id]

theorem update_congr {rows : Rows α} {selected other : α → Bool} {change : α → α}
    (h : ∀ row ∈ rows, selected row = other row) :
    update rows selected change = update rows other change :=
  List.map_congr_left fun row hrow => by rw [h row hrow]

/-- A selection that the change leaves alone filters before or after it. -/
theorem filter_update {rows : Rows α} {selected kept : α → Bool} {change : α → α}
    (h : ∀ row, kept (change row) = kept row) :
    (update rows selected change).filter kept = update (rows.filter kept) selected change := by
  induction rows with
  | nil => rfl
  | cons row rows ih =>
    have hkept : kept (if selected row then change row else row) = kept row := by
      split
      · exact h row
      · rfl
    simp only [update, List.map_cons, List.filter_cons, hkept] at ih ⊢
    split
    · rw [ih, List.map_cons]
    · exact ih

/-- Updating the rows of one key twice keeps what the second update writes. -/
theorem update_update [DecidableEq κ] {rows : Rows α} {key : α → κ} {value : κ}
    {first second change : α → α} (hkey : ∀ row, key (first row) = key row)
    (h : ∀ row, second (first row) = change row) :
    update (update rows (fun row => key row = value) first) (fun row => key row = value) second =
      update rows (fun row => key row = value) change := by
  rw [update, update, List.map_map]
  apply List.map_congr_left
  intro row _
  by_cases hrow : key row = value <;> simp [hrow, hkey, h]

theorem nodup_update {rows : Rows α} {key : α → κ} {selected : α → Bool} {change : α → α}
    (h : ∀ row, key (change row) = key row) (hkeys : (rows.map key).Nodup) :
    ((update rows selected change).map key).Nodup := by
  rwa [update_map h]

theorem nodup_append {rows : Rows α} {key : α → κ} {row : α} (hkeys : (rows.map key).Nodup)
    (hfresh : ∀ other ∈ rows, key other ≠ key row) : ((rows ++ [row]).map key).Nodup := by
  rw [List.map_append, List.map_singleton, List.nodup_append]
  refine ⟨hkeys, List.nodup_singleton _, ?_⟩
  simpa using hfresh

section References

/-! A reference is a column whose values are among the keys of another table. -/

variable {rows : Rows α} {column : α → κ} {keys : List κ} {selected : α → Bool}
  {change : α → α} {row : α}

theorem refers_update (h : ∀ row, column (change row) = column row)
    (hrefers : rows.map column ⊆ keys) :
    (update rows selected change).map column ⊆ keys := by
  rwa [update_map h]

theorem refers_append (hrefers : rows.map column ⊆ keys) (hrow : column row ∈ keys) :
    (rows ++ [row]).map column ⊆ keys := by
  intro value hvalue
  rw [List.map_append, List.mem_append, List.map_singleton, List.mem_singleton] at hvalue
  rcases hvalue with hvalue | rfl
  · exact hrefers hvalue
  · exact hrow

theorem referred_update (h : ∀ row, column (change row) = column row)
    (hrefers : keys ⊆ rows.map column) :
    keys ⊆ (update rows selected change).map column := by
  rwa [update_map h]

theorem referred_append (more : Rows α) (hrefers : keys ⊆ rows.map column) :
    keys ⊆ (rows ++ more).map column := by
  rw [List.map_append]
  exact List.subset_append_of_subset_left _ hrefers

end References

/-- A key determines its row. -/
theorem eq_of_key [DecidableEq κ] {rows : Rows α} {key : α → κ} (hkeys : (rows.map key).Nodup)
    {row other : α} (hrow : row ∈ rows) (hother : other ∈ rows)
    (h : key row = key other) : row = other :=
  List.inj_on_of_nodup_map hkeys hrow hother h

theorem length_le_one {rows : Rows α} {key : α → κ} (hkeys : (rows.map key).Nodup)
    (h : ∀ row ∈ rows, ∀ other ∈ rows, key row = key other) : rows.length ≤ 1 := by
  match rows with
  | [] => exact Nat.zero_le 1
  | [_] => exact Nat.le_refl 1
  | row :: other :: rest =>
    refine absurd (h row (by simp) other (by simp)) fun heq => ?_
    exact (List.nodup_cons.mp hkeys).1 (by simp [heq])

/-- `SELECT … WHERE key = ?` of a unique key. -/
def find (rows : Rows α) (selected : α → Bool) : Option α := rows.find? selected

theorem find_some {rows : Rows α} {selected : α → Bool} {row : α}
    (h : find rows selected = some row) :
    row ∈ rows ∧ selected row = true :=
  ⟨List.mem_of_find?_eq_some h, List.find?_some h⟩

theorem find_key_iff [DecidableEq κ] {rows : Rows α} {key : α → κ} (hkeys : (rows.map key).Nodup)
    {value : κ} {row : α} :
    find rows (fun other => key other = value) = some row ↔ row ∈ rows ∧ key row = value := by
  constructor
  · intro h
    exact ⟨(find_some h).1, by simpa using (find_some h).2⟩
  · rintro ⟨hrow, rfl⟩
    cases h : find rows (fun other => key other = key row) with
    | none =>
      have hnot := List.find?_eq_none.mp h row hrow
      simp at hnot
    | some other =>
      obtain ⟨hmem, hkey⟩ := find_some h
      rw [eq_of_key hkeys hmem hrow (by simpa using hkey)]

/-- A selection by key finds at most one row. -/
theorem filter_key [DecidableEq κ] {rows : Rows α} {key : α → κ}
    (hkeys : (rows.map key).Nodup) (value : κ) :
    rows.filter (fun row => key row = value) = [] ∨ ∃ row ∈ rows, key row = value ∧
      rows.filter (fun row => key row = value) = [row] := by
  induction rows with
  | nil => exact Or.inl rfl
  | cons row rows ih =>
    obtain ⟨hfresh, hrest⟩ := List.nodup_cons.mp hkeys
    by_cases hrow : key row = value
    · refine Or.inr ⟨row, by simp, hrow, ?_⟩
      rw [List.filter_cons_of_pos (by simpa using hrow), List.cons_eq_cons]
      refine ⟨rfl, List.filter_eq_nil_iff.mpr fun other hother heq => hfresh ?_⟩
      rw [hrow, ← of_decide_eq_true heq]
      exact List.mem_map_of_mem hother
    · rw [List.filter_cons_of_neg (by simpa using hrow)]
      rcases ih hrest with hnone | ⟨other, hother, hkey, hfilter⟩
      · exact Or.inl hnone
      · exact Or.inr ⟨other, List.mem_cons_of_mem _ hother, hkey, hfilter⟩

/-- A join that pairs each row with at most one other keeps the rows' keys in order. -/
theorem flatMap_sublist {rows : Rows α} {join : α → List β} {key : α → κ} {column : β → κ}
    (h : ∀ row ∈ rows, ((join row).map column).Sublist [key row]) :
    ((rows.flatMap join).map column).Sublist (rows.map key) := by
  induction rows with
  | nil => exact List.Sublist.refl _
  | cons row rows ih =>
    rw [List.flatMap_cons, List.map_append, List.map_cons]
    exact (h row (by simp)).append (ih fun other hother => h other (List.mem_cons_of_mem _ hother))

/-- The only selected row is found. -/
theorem find_unique {rows : Rows α} {selected : α → Bool} {row : α} (hrow : row ∈ rows)
    (hselected : selected row = true)
    (honly : ∀ other ∈ rows, selected other = true → other = row) :
    find rows selected = some row := by
  cases h : find rows selected with
  | none =>
    have hnot := List.find?_eq_none.mp h row hrow
    exact absurd hselected hnot
  | some other =>
    obtain ⟨hother, hfound⟩ := find_some h
    rw [honly other hother hfound]

theorem find_none {rows : Rows α} {selected : α → Bool} :
    find rows selected = none ↔ ∀ row ∈ rows, selected row = false := by
  simp [find]

end Rows
