import Mathlib.Data.List.Basic
import Proximity.NormMatrix.Basic

/-!
# The views of a norm matrix

A matrix is known by its layout and its entries: every position in range has one, and two matrices
with the same layout and the same entries are equal.  The rows and columns are lists of entries.

* `NormMatrix.exists_get?`, `NormMatrix.lt_of_get?` : the positions in range have an entry, and no
  others.
* `NormMatrix.ext_get?` : **a matrix is determined by its layout and its entries**.
* `NormMatrix.getElem?_row`, `NormMatrix.getElem?_column`, `NormMatrix.getElem?_toRows` : the entries
  of a row and of a column, and the rows of a matrix.
* `NormMatrix.column?_ofFn`, `NormMatrix.row?_ofFn` : the columns and rows of the matrix with given
  distances.
-/

namespace Proximity

/-- A list that is collected from a range of indices, each of which gives something. -/
theorem getElem?_filterMap_range {α : Type} {f : ℕ → Option α} {n : ℕ}
    (h : ∀ i < n, ∃ a, f i = some a) :
    ((List.range n).filterMap f).length = n ∧
      ∀ i < n, ((List.range n).filterMap f)[i]? = f i := by
  induction n with
  | zero => simp
  | succ n ih =>
    obtain ⟨hlen, hget⟩ := ih fun i hi => h i (Nat.lt_succ_of_lt hi)
    obtain ⟨a, ha⟩ := h n (Nat.lt_succ_self n)
    rw [List.range_succ, List.filterMap_append, List.filterMap_cons_some ha, List.filterMap_nil]
    refine ⟨by rw [List.length_append, hlen, List.length_singleton], fun i hi => ?_⟩
    rcases Nat.lt_succ_iff_lt_or_eq.1 hi with hlt | rfl
    · rw [List.getElem?_append_left (hlen.symm ▸ hlt), hget i hlt]
    · rw [List.getElem?_append_right (Nat.le_of_eq hlen), hlen, Nat.sub_self, ha]
      rfl

namespace NormMatrix

variable {m m' : NormMatrix} {i j : ℕ}

/-! ### Entries -/

/-- Every position in range has an entry. -/
theorem exists_get? (hi : i < m.rows) (hj : j < m.columns) : ∃ v, m.get? i j = some v := by
  have hlt : i * m.columns + j < m.values.size := m.size_eq ▸ place_lt hi hj
  exact ⟨_, (get?_eq_some_iff hj).2 (Array.getElem?_eq_getElem hlt)⟩

/-- Only positions in range have an entry. -/
theorem lt_of_get? {v : Float} (h : m.get? i j = some v) : i < m.rows ∧ j < m.columns := by
  by_cases hj : j < m.columns
  · rw [get?_eq_some_iff hj] at h
    obtain ⟨hlt, -⟩ := Array.getElem?_eq_some_iff.1 h
    rw [m.size_eq] at hlt
    refine ⟨?_, hj⟩
    by_contra hi
    have hle := Nat.mul_le_mul_right m.columns (Nat.le_of_not_lt hi)
    exact absurd hlt (Nat.not_lt_of_le (Nat.le_trans hle (Nat.le_add_right _ j)))
  · rw [get?, if_neg hj] at h
    cases h

theorem get?_eq_none (hi : ¬ i < m.rows) : m.get? i j = none := by
  cases hv : m.get? i j with
  | none => rfl
  | some v => exact absurd (lt_of_get? hv).1 hi

/-- The value at a place is the entry at its row and column. -/
theorem getElem?_values {p : ℕ} : m.values[p]? = m.get? (p / m.columns) (p % m.columns) := by
  rw [get?, if_pos (Nat.mod_lt _ m.columns_pos), Nat.div_add_mod']

/-- **A matrix is determined by its layout and its entries.** -/
theorem ext_get? (hrows : m.rows = m'.rows) (hcolumns : m.columns = m'.columns)
    (hreference : m.reference = m'.reference)
    (h : ∀ i < m.rows, ∀ j < m.columns, m.get? i j = m'.get? i j) : m = m' := by
  have hvalues : m.values = m'.values := by
    refine Array.ext_getElem? fun p => ?_
    rcases Nat.lt_or_ge p (m.rows * m.columns) with hp | hp
    · rw [getElem?_values, getElem?_values, ← hcolumns]
      exact h _ (Nat.div_lt_of_lt_mul (Nat.mul_comm _ _ ▸ hp)) _ (Nat.mod_lt _ m.columns_pos)
    · rw [Array.getElem?_eq_none (m.size_eq ▸ hp),
        Array.getElem?_eq_none (m'.size_eq ▸ hrows ▸ hcolumns ▸ hp)]
  cases m
  cases m'
  simp only at hrows hcolumns hreference hvalues
  subst hrows hcolumns hreference hvalues
  rfl

/-! ### The matrix with given distances -/

variable {rows columns reference : ℕ} {hc : 0 < columns} {hr : reference < rows}
  {distance : ℕ → ℕ → Float}

theorem cell_self (reference : ℕ) (distance : ℕ → ℕ → Float) (j : ℕ) :
    cell reference distance reference j = Scalar.infinity := if_pos rfl

theorem cell_of_ne (hi : i ≠ reference) : cell reference distance i j = distance i j := if_neg hi

/-- The values of a row are its entries. -/
theorem getElem?_row (hi : i < m.rows) :
    ∃ row, m.row? i = some row ∧ row.length = m.columns ∧ ∀ j, row[j]? = m.get? i j := by
  have hle : (i + 1) * m.columns ≤ m.values.size := m.size_eq ▸ Nat.mul_le_mul_right _ hi
  refine ⟨_, if_pos hi, ?_, ?_⟩
  · rw [Array.length_toList, Array.size_extract, Nat.min_eq_left hle, Nat.succ_mul,
      Nat.add_sub_cancel_left]
  · intro j
    rw [Array.getElem?_toList, Array.getElem?_extract, Nat.min_eq_left hle, Nat.succ_mul,
      Nat.add_sub_cancel_left, get?]

/-- The values of a column are its entries. -/
theorem getElem?_column (m : NormMatrix) (hj : j < m.columns) :
    ∃ column, m.column? j = some column ∧ column.length = m.rows ∧
      ∀ i, column[i]? = m.get? i j := by
  obtain ⟨hlen, hget⟩ := getElem?_filterMap_range fun i hi => exists_get? (m := m) hi hj
  refine ⟨_, if_pos hj, hlen, fun i => ?_⟩
  by_cases hi : i < m.rows
  · exact hget i hi
  · rw [get?_eq_none hi]
    exact List.getElem?_eq_none (hlen.symm ▸ Nat.le_of_not_lt hi)

/-- A row that is there has an entry for every column. -/
theorem length_of_row? {row : List Float} (h : m.row? i = some row) : row.length = m.columns := by
  have hi : i < m.rows := by
    by_contra hi
    rw [row?, if_neg hi] at h
    cases h
  obtain ⟨row', hrow, hlen, -⟩ := m.getElem?_row hi
  rw [Option.some.inj (h.symm.trans hrow), hlen]

/-- A column that is there has an entry for every row. -/
theorem length_of_column? {column : List Float} (h : m.column? j = some column) :
    column.length = m.rows := by
  have hj : j < m.columns := by
    by_contra hj
    rw [column?, if_neg hj] at h
    cases h
  obtain ⟨column', hcolumn, hlen, -⟩ := m.getElem?_column hj
  rw [Option.some.inj (h.symm.trans hcolumn), hlen]

theorem exists_row? (hi : i < m.rows) : ∃ row, m.row? i = some row := by
  obtain ⟨row, hrow, -⟩ := m.getElem?_row hi
  exact ⟨row, hrow⟩

theorem length_toRows (m : NormMatrix) : m.toRows.length = m.rows :=
  (getElem?_filterMap_range fun _ => exists_row?).1

/-- The rows of a matrix, in order. -/
theorem getElem?_toRows (m : NormMatrix) (i : ℕ) : m.toRows[i]? = m.row? i := by
  by_cases hi : i < m.rows
  · exact (getElem?_filterMap_range fun _ => exists_row?).2 i hi
  · rw [row?, if_neg hi]
    exact List.getElem?_eq_none (m.length_toRows.symm ▸ Nat.le_of_not_lt hi)

theorem row?_ofFn (hi : i < rows) :
    (ofFn rows columns reference hc hr distance).row? i =
      some ((List.range columns).map (cell reference distance i)) := by
  obtain ⟨row, hrow, hlen, hget⟩ :=
    (ofFn rows columns reference hc hr distance).getElem?_row hi
  rw [hrow]
  refine congrArg some (List.ext_getElem? fun j => ?_)
  rw [hget, List.getElem?_map]
  by_cases hj : j < columns
  · rw [get?_ofFn hi hj, List.getElem?_range hj, Option.map_some]
  · rw [get?, List.getElem?_eq_none (by simpa using hj)]
    exact if_neg hj

theorem column?_ofFn (hj : j < columns) :
    (ofFn rows columns reference hc hr distance).column? j =
      some ((List.range rows).map fun i => cell reference distance i j) := by
  obtain ⟨column, hcolumn, -, hget⟩ :=
    (ofFn rows columns reference hc hr distance).getElem?_column hj
  rw [hcolumn]
  refine congrArg some (List.ext_getElem? fun i => ?_)
  rw [hget, List.getElem?_map]
  by_cases hi : i < rows
  · rw [get?_ofFn hi hj, List.getElem?_range hi, Option.map_some]
  · rw [get?_eq_none hi, List.getElem?_eq_none (by simpa using hi)]
    rfl

end NormMatrix

end Proximity
