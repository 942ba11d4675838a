import Proximity.Proofs.Guarded.Basic
import Proximity.Proofs.NormMatrix.Views

/-!
# Flat tables

A norm matrix is one array of values with a number of columns.  Seen as that and nothing else, a
table does not know its number of rows or that there is a column, and a reading of it divides,
slices, steps or cuts into chunks on trust.  The guarded readings below give up where there is
nothing to divide by or to step by, and where a slice is out of range.

* `FlatTable` : the values, with the number of columns and the reference row.
* `FlatTable.rows?`, `row?`, `get?`, `column?`, `chunks?`, `intoRows?` : guarded readings.
* `NormMatrix.rows?_flat`, `row?_flat`, `get?_flat`, `column?_flat`, `chunks?_flat` : **the guarded
  readings of a norm matrix are its rows, entries and columns**.
* `NormMatrix.row?_eq_none_iff` : a row is missing if and only if it is out of range.
* `NormMatrix.intoRows?_flat` : the rows can be copied if there is room for them.
-/

namespace Proximity

/-! ### Stepping and cutting -/

section Lists

variable {α : Type}

/-- Every `k`-th element, from the first one on. -/
def stepBy (k : ℕ) : List α → List α
  | [] => []
  | a :: l => a :: stepBy k (l.drop (k - 1))
termination_by l => l.length
decreasing_by simp only [List.length_drop, List.length_cons]; omega

/-- Consecutive parts of length `k`; what is left over at the end is not given. -/
def chunksExact (k : ℕ) (l : List α) : List (List α) :=
  if 0 < k ∧ k ≤ l.length then l.take k :: chunksExact k (l.drop k) else []
termination_by l.length
decreasing_by simp only [List.length_drop]; omega

theorem getElem?_stepBy {k : ℕ} (hk : 0 < k) (l : List α) (i : ℕ) :
    (stepBy k l)[i]? = l[i * k]? := by
  induction l using stepBy.induct k generalizing i with
  | case1 => simp [stepBy]
  | case2 a l ih =>
    rw [stepBy]
    cases i with
    | zero => simp
    | succ i =>
      have hplace : (i + 1) * k = k - 1 + i * k + 1 := by
        rw [Nat.succ_mul]
        omega
      rw [List.getElem?_cons_succ, ih, List.getElem?_drop, hplace, List.getElem?_cons_succ]

theorem getElem?_chunksExact {k : ℕ} (hk : 0 < k) (l : List α) (i : ℕ) :
    (chunksExact k l)[i]? =
      if (i + 1) * k ≤ l.length then some ((l.drop (i * k)).take k) else none := by
  induction l using chunksExact.induct k generalizing i with
  | case1 l h ih =>
    rw [chunksExact, if_pos h]
    cases i with
    | zero => simp [h.2]
    | succ i =>
      have hbound : (i + 1) * k ≤ l.length - k ↔ (i + 1 + 1) * k ≤ l.length := by
        rw [Nat.le_sub_iff_add_le h.2, Nat.succ_mul (i + 1)]
      have hstart : k + i * k = (i + 1) * k := by rw [Nat.succ_mul, Nat.add_comm]
      rw [List.getElem?_cons_succ, ih, List.drop_drop]
      simp only [List.length_drop, hbound, hstart]
  | case2 l h =>
    have hlt : l.length < k := by
      by_contra hle
      exact h ⟨hk, Nat.le_of_not_lt hle⟩
    have hle : k ≤ (i + 1) * k := Nat.le_mul_of_pos_left k (Nat.succ_pos i)
    rw [chunksExact, if_neg h, if_neg (by omega), List.getElem?_nil]

end Lists

/-! ### Readings -/

/-- The values of a table, row by row, with its number of columns and its reference row. -/
structure FlatTable where
  /-- The values, row by row. -/
  values : Array Float
  /-- The number of columns. -/
  columns : ℕ
  /-- The row from which the distances are measured. -/
  reference : ℕ

/-- A number to divide or to step by. -/
def positive? (k : ℕ) : Option ℕ := if k = 0 then none else some k

theorem positive?_eq_some {k : ℕ} (h : 0 < k) : positive? k = some k :=
  if_neg (Nat.ne_of_gt h)

namespace FlatTable

variable (table : FlatTable)

/-- The number of rows. -/
def rows? : Option ℕ := do
  let columns ← positive? table.columns
  some (table.values.size / columns)

/-- Where row `i` starts and where it ends. -/
def slice? (i : ℕ) : Option (ℕ × ℕ) := do
  let start ← word? (i * table.columns)
  let stop ← word? ((i + 1) * table.columns)
  if stop ≤ table.values.size then some (start, stop) else none

/-- The values of row `i`. -/
def row? (i : ℕ) : Option (List Float) := do
  let (start, stop) ← table.slice? i
  some (table.values.extract start stop).toList

/-- The value in row `i` and column `j`, if there is one. -/
def get? (i j : ℕ) : Option (Option Float) :=
  if j < table.columns then do
    let start ← word? (i * table.columns)
    let p ← word? (start + j)
    some table.values[p]?
  else some none

/-- The values of column `j`, if there is such a column. -/
def column? (j : ℕ) : Option (Option (List Float)) :=
  if j < table.columns then do
    let columns ← positive? table.columns
    some (some (stepBy columns (table.values.toList.drop j)))
  else some none

/-- The values of every row. -/
def chunks? : Option (List (List Float)) := do
  let columns ← positive? table.columns
  some (chunksExact columns table.values.toList)

/-- The values of every row, each in a vector of its own.  The vectors themselves take three words
each. -/
def intoRows? : Option (List (List Float)) := do
  let rows ← table.chunks?
  Request.ask? ⟨rows.length, 24⟩
  rows.mapM fun row => do
    Request.ask? ⟨row.length, 8⟩
    some row

variable {table} {i : ℕ}

theorem slice?_eq_some (hwords : table.values.size < UInt64.size)
    (h : (i + 1) * table.columns ≤ table.values.size) :
    table.slice? i = some (i * table.columns, (i + 1) * table.columns) := by
  have hstart : i * table.columns ≤ (i + 1) * table.columns :=
    Nat.mul_le_mul_right _ (Nat.le_succ i)
  rw [slice?, word?_eq_some (Nat.lt_of_le_of_lt (Nat.le_trans hstart h) hwords),
    word?_eq_some (Nat.lt_of_le_of_lt h hwords)]
  exact if_pos h

theorem slice?_eq_none (h : table.values.size < (i + 1) * table.columns) :
    table.slice? i = none := by
  rw [slice?]
  rcases word?_eq_none_or_eq_some (i * table.columns) with hstart | hstart <;> rw [hstart]
  · rfl
  · rcases word?_eq_none_or_eq_some ((i + 1) * table.columns) with hstop | hstop
    · simp [hstop]
    · simp [hstop, Nat.not_le_of_lt h]

end FlatTable

namespace NormMatrix

/-- The values of a norm matrix without its invariants. -/
def flat (m : NormMatrix) : FlatTable := ⟨m.values, m.columns, m.reference⟩

variable (m : NormMatrix) {i j : ℕ}

theorem rows?_flat : m.flat.rows? = some m.rows := by
  rw [FlatTable.rows?, flat, positive?_eq_some m.columns_pos, m.size_eq]
  exact congrArg some (Nat.mul_div_cancel m.rows m.columns_pos)

/-- A slice is in range if and only if its row is. -/
theorem row?_flat (hwords : m.rows * m.columns < UInt64.size) (i : ℕ) :
    m.flat.row? i = m.row? i := by
  have hsize : m.flat.values.size = m.rows * m.columns := m.size_eq
  rw [FlatTable.row?, row?]
  by_cases hi : i < m.rows
  · have hstop : (i + 1) * m.flat.columns ≤ m.flat.values.size :=
      hsize ▸ Nat.mul_le_mul_right m.columns hi
    rw [if_pos hi, FlatTable.slice?_eq_some (hsize ▸ hwords) hstop]
    rfl
  · have hstop : m.flat.values.size < (i + 1) * m.flat.columns := by
      rw [hsize]
      exact Nat.mul_lt_mul_of_pos_right (by omega) m.columns_pos
    rw [if_neg hi, FlatTable.slice?_eq_none hstop]
    rfl

theorem get?_flat (hword : i * m.columns + j < UInt64.size) :
    m.flat.get? i j = some (m.get? i j) := by
  rw [FlatTable.get?, get?]
  change (if j < m.columns then _ else _) = _
  split_ifs
  · have hstart : i * m.columns < UInt64.size := by omega
    change (word? (i * m.columns) >>= _) = _
    rw [word?_eq_some hstart]
    change (word? (i * m.columns + j) >>= _) = _
    rw [word?_eq_some hword]
    rfl
  · rfl

/-- Stepping through the values gives the entries of a column. -/
theorem column?_flat (j : ℕ) : m.flat.column? j = some (m.column? j) := by
  rw [FlatTable.column?]
  change (if j < m.columns then _ else _) = _
  split_ifs with hj
  · obtain ⟨column, hcolumn, -, hget⟩ := m.getElem?_column hj
    have hpositive : positive? m.flat.columns = some m.columns := positive?_eq_some m.columns_pos
    rw [hcolumn, hpositive]
    refine congrArg (some ∘ some) (List.ext_getElem? fun i => ?_)
    rw [getElem?_stepBy m.columns_pos, List.getElem?_drop, hget, get?, if_pos hj,
      Nat.add_comm j, ← Array.getElem?_toList]
    rfl
  · rw [column?, if_neg hj]

/-- The chunks of the values are the rows. -/
theorem chunks?_flat : m.flat.chunks? = some m.toRows := by
  have hpositive : positive? m.flat.columns = some m.columns := positive?_eq_some m.columns_pos
  rw [FlatTable.chunks?, hpositive]
  refine congrArg some (List.ext_getElem? fun i => ?_)
  have hlen : m.flat.values.toList.length = m.rows * m.columns := m.size_eq
  rw [getElem?_chunksExact m.columns_pos, getElem?_toRows, hlen, row?]
  simp only [Nat.mul_le_mul_right_iff m.columns_pos, Nat.succ_le_iff]
  split_ifs with hi
  · rw [Array.toList_extract, List.extract_eq_take_drop, Nat.succ_mul, Nat.add_sub_cancel_left]
    rfl
  · rfl

/-- The rows of a matrix whose values are there can be copied if there is room for the vectors. -/
theorem intoRows?_flat (hvalues : (Request.mk (m.rows * m.columns) 8).Granted) :
    m.flat.intoRows? = if (Request.mk m.rows 24).Granted then some m.toRows else none := by
  rw [FlatTable.intoRows?, chunks?_flat]
  change (Request.ask? _ >>= fun _ => _) = _
  rw [Request.ask?_bind, m.length_toRows]
  refine if_congr Iff.rfl ?_ rfl
  -- a row takes no more room than all of them
  have hrow : ∀ row ∈ m.toRows, ((Request.mk row.length 8).ask? >>= fun _ => some row) =
      some (id row) := by
    intro row hmem
    obtain ⟨i, hi⟩ := List.mem_iff_getElem?.1 hmem
    rw [getElem?_toRows] at hi
    have hlen : row.length ≤ m.rows * m.columns := by
      rw [length_of_row? hi]
      exact Nat.le_mul_of_pos_left _ (Nat.lt_of_le_of_lt (Nat.zero_le _) m.reference_lt)
    rw [Request.ask?_bind, if_pos (hvalues.mono hlen (Nat.le_refl _))]
    rfl
  exact (mapM_eq_some hrow).trans (congrArg some (List.map_id _))

/-- A row is missing if and only if it is out of range. -/
theorem row?_eq_none_iff : m.row? i = none ↔ m.rows ≤ i := by
  unfold row?
  split_ifs with h
  · simp [h]
  · simp [Nat.le_of_not_lt h]

end NormMatrix

end Proximity
