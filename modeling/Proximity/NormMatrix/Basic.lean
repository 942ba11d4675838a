import Proximity.Scalar

/-!
# Norm matrices

A norm matrix holds the distances from one *reference* row to every row, once per *column*.  A
column is a space in which distances are measured: a whole series, or a single variable.  The
values are stored row by row.  The reference row is infinite in every column, so that the reference
is never among its own neighbours.

## Main definitions

* `NormMatrix` : the values with their layout.
* `NormMatrix.ofFn` : the matrix with the given distances outside the reference row.
* `NormMatrix.get?`, `NormMatrix.row?`, `NormMatrix.column?`, `NormMatrix.toRows` : the views.
-/

namespace Proximity

/-- Distances from a reference row to every row, in several columns. -/
structure NormMatrix where
  /-- The number of rows. -/
  rows : Nat
  /-- The number of columns. -/
  columns : Nat
  /-- The row from which the distances are measured. -/
  reference : Nat
  /-- The values, row by row. -/
  values : Array Float
  /-- Every row has a value in every column. -/
  size_eq : values.size = rows * columns
  /-- There is a column. -/
  columns_pos : 0 < columns
  /-- The reference is one of the rows. -/
  reference_lt : reference < rows

namespace NormMatrix

/-- The value in row `i` and column `j` of the matrix with the given distances outside the
reference row. -/
def cell (reference : Nat) (distance : Nat → Nat → Float) (i j : Nat) : Float :=
  if i = reference then Scalar.infinity else distance i j

/-- The matrix with the given distances outside the reference row. -/
def ofFn (rows columns reference : Nat) (columns_pos : 0 < columns)
    (reference_lt : reference < rows) (distance : Nat → Nat → Float) : NormMatrix where
  rows := rows
  columns := columns
  reference := reference
  values := Array.ofFn fun k : Fin (rows * columns) =>
    cell reference distance (k.val / columns) (k.val % columns)
  size_eq := Array.size_ofFn
  columns_pos := columns_pos
  reference_lt := reference_lt

variable (m : NormMatrix)

/-- The value in row `i` and column `j`, if both are in range. -/
def get? (i j : Nat) : Option Float :=
  if j < m.columns then m.values[i * m.columns + j]? else none

/-- The values of row `i`, if it is in range. -/
def row? (i : Nat) : Option (List Float) :=
  if i < m.rows then some (m.values.extract (i * m.columns) ((i + 1) * m.columns)).toList
  else none

/-- The values of column `j` in row order, if it is in range. -/
def column? (j : Nat) : Option (List Float) :=
  if j < m.columns then some ((List.range m.rows).filterMap fun i => m.get? i j) else none

/-- The values of every row, in row order. -/
def toRows : List (List Float) := (List.range m.rows).filterMap m.row?

/-- Two matrices are the same if they have the same layout and the same values.  Values are compared
as numbers, so a matrix with a NaN differs from every matrix. -/
def same (a b : NormMatrix) : Bool :=
  a.rows == b.rows && a.columns == b.columns && a.reference == b.reference && a.values == b.values

instance : BEq NormMatrix := ⟨same⟩

variable {m}

/-- Every position in range has a place in the row-major layout. -/
theorem place_lt {rows columns i j : Nat} (hi : i < rows) (hj : j < columns) :
    i * columns + j < rows * columns :=
  calc i * columns + j < i * columns + columns := Nat.add_lt_add_left hj _
    _ = (i + 1) * columns := (Nat.succ_mul i columns).symm
    _ ≤ rows * columns := Nat.mul_le_mul_right columns hi

theorem get?_eq_some_iff {i j : Nat} {x : Float} (hj : j < m.columns) :
    m.get? i j = some x ↔ m.values[i * m.columns + j]? = some x := by
  simp only [get?, hj, ↓reduceIte]

theorem get?_ofFn {rows columns reference i j : Nat} {hc : 0 < columns} {hr : reference < rows}
    {distance : Nat → Nat → Float} (hi : i < rows) (hj : j < columns) :
    (ofFn rows columns reference hc hr distance).get? i j =
      some (cell reference distance i j) := by
  have hdiv : (i * columns + j) / columns = i := by
    rw [Nat.add_comm, Nat.add_mul_div_right _ _ hc, Nat.div_eq_of_lt hj, Nat.zero_add]
  have hmod : (i * columns + j) % columns = j := by
    rw [Nat.add_comm, Nat.add_mul_mod_self_right, Nat.mod_eq_of_lt hj]
  have hlt := place_lt hi hj
  simp only [get?, ofFn, hj, ↓reduceIte, Array.getElem?_ofFn, hlt, ↓reduceDIte, hdiv, hmod]

end NormMatrix

end Proximity
