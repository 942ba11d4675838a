import Proximity.Proofs.Binary64.Value
import Proximity.Proofs.Guarded.Operation

/-!
# The accessors of a norm matrix

A norm matrix can be read entry by entry, by rows, by columns, or as a whole.  All of these readings
show the same entries, and none shows an entry out of range.  This holds for the values of the
matrix as they are stored, too, where an entry is found by multiplying and adding, a row by slicing,
a column by stepping and all rows by cutting into chunks.

Matrices are compared by their stored values, as numbers.  That is comparing them entry by entry.

* `NormMatrix.Shows` : an entry, as every reading shows it.
* `NormMatrix.Coherent`, `NormMatrix.coherent` : **the readings of a matrix agree**.
* `NormMatrix.beq_iff`, `NormMatrix.beq_self_iff` : which matrices compare equal.
* `FlatTable.same`, `NormMatrix.same_flat` : comparing the stored values.
* `Operation.readings_agree` : **what can be read of a matrix that an operation has built**.
-/

namespace Proximity

/-! ### Readings -/

namespace NormMatrix

variable {m m' : NormMatrix} {i j : ℕ} {v : Float}

/-- The entry in row `i` and column `j` is `v`, by whichever view it is read. -/
structure Shows (m : NormMatrix) (i j : ℕ) (v : Float) : Prop where
  /-- The entry alone. -/
  get?_eq : m.get? i j = some v
  /-- The entry in its row. -/
  row : ∃ row, m.row? i = some row ∧ row[j]? = some v
  /-- The entry in its column. -/
  column : ∃ column, m.column? j = some column ∧ column[i]? = some v
  /-- The entry among all rows. -/
  rows : ∃ row, m.toRows[i]? = some row ∧ row[j]? = some v

theorem shows_of_get? (h : m.get? i j = some v) : m.Shows i j v := by
  obtain ⟨hi, hj⟩ := lt_of_get? h
  obtain ⟨row, hrow, -, hentries⟩ := m.getElem?_row hi
  obtain ⟨column, hcolumn, -, hentries'⟩ := m.getElem?_column hj
  exact ⟨h, ⟨row, hrow, (hentries j).trans h⟩, ⟨column, hcolumn, (hentries' i).trans h⟩,
    ⟨row, (m.getElem?_toRows i).trans hrow, (hentries j).trans h⟩⟩

/-- The views of a matrix have its layout and show the same entries. -/
structure Coherent (m : NormMatrix) : Prop where
  /-- There are entries in range, and no others. -/
  isSome_get? : ∀ i j, (m.get? i j).isSome = true ↔ i < m.rows ∧ j < m.columns
  /-- All views show the same entries. -/
  shows : ∀ i j v, m.get? i j = some v → m.Shows i j v
  /-- There are columns in range, and no others. -/
  isSome_column? : ∀ j, (m.column? j).isSome = true ↔ j < m.columns
  /-- A column has an entry for every row. -/
  length_column : ∀ j column, m.column? j = some column → column.length = m.rows
  /-- All rows are given. -/
  length_toRows : m.toRows.length = m.rows
  /-- Every row has an entry for every column. -/
  length_row : ∀ row ∈ m.toRows, row.length = m.columns

/-- **The readings of a matrix agree.** -/
theorem coherent (m : NormMatrix) : m.Coherent where
  isSome_get? i j := by
    rw [Option.isSome_iff_exists]
    exact ⟨fun ⟨_, h⟩ => lt_of_get? h, fun ⟨hi, hj⟩ => exists_get? hi hj⟩
  shows _ _ _ := shows_of_get?
  isSome_column? j := by
    unfold column?
    split_ifs with hj <;> simp [hj]
  length_column _ _ := length_of_column?
  length_toRows := m.length_toRows
  length_row row hmem := by
    obtain ⟨i, hi⟩ := List.mem_iff_getElem?.1 hmem
    rw [getElem?_toRows] at hi
    exact length_of_row? hi

/-! ### Comparing -/

/-- The same layout, and entries that compare equal as numbers. -/
structure SameEntries (m m' : NormMatrix) : Prop where
  /-- Equally many rows. -/
  rows_eq : m.rows = m'.rows
  /-- Equally many columns. -/
  columns_eq : m.columns = m'.columns
  /-- The same reference row. -/
  reference_eq : m.reference = m'.reference
  /-- The entries compare equal. -/
  get?_eq : ∀ i j v w, m.get? i j = some v → m'.get? i j = some w → (v == w) = true

/-- Comparing stored values is comparing entries. -/
theorem values_beq_iff (hrows : m.rows = m'.rows) (hcolumns : m.columns = m'.columns) :
    (m.values == m'.values) = true ↔
      ∀ i j v w, m.get? i j = some v → m'.get? i j = some w → (v == w) = true := by
  change m.values.isEqv m'.values (· == ·) = true ↔ _
  rw [Array.isEqv_iff_rel]
  constructor
  · rintro ⟨hsize, hvalues⟩ i j v w hv hw
    obtain ⟨hi, hj⟩ := lt_of_get? hv
    obtain ⟨hp, rfl⟩ := Array.getElem?_eq_some_iff.1 ((get?_eq_some_iff hj).1 hv)
    rw [get?_eq_some_iff (hcolumns ▸ hj), ← hcolumns] at hw
    obtain ⟨-, rfl⟩ := Array.getElem?_eq_some_iff.1 hw
    exact hvalues _ hp
  · intro h
    have hsize : m.values.size = m'.values.size := by
      rw [m.size_eq, m'.size_eq, hrows, hcolumns]
    refine ⟨hsize, fun p hp => ?_⟩
    -- a place is the one of its row and its column
    refine h (p / m.columns) (p % m.columns) _ _ ?_ ?_
    · rw [← getElem?_values, Array.getElem?_eq_getElem hp]
    · rw [hcolumns, ← getElem?_values, Array.getElem?_eq_getElem (hsize ▸ hp)]

/-- **Matrices compare equal** if they have the same layout and entries that compare equal. -/
theorem beq_iff : (m == m') = true ↔ m.SameEntries m' := by
  change (m.rows == m'.rows && m.columns == m'.columns && m.reference == m'.reference &&
    m.values == m'.values) = true ↔ _
  simp only [Bool.and_eq_true, beq_iff_eq]
  constructor
  · rintro ⟨⟨⟨hrows, hcolumns⟩, hreference⟩, hvalues⟩
    exact ⟨hrows, hcolumns, hreference, (values_beq_iff hrows hcolumns).1 hvalues⟩
  · rintro ⟨hrows, hcolumns, hreference, hentries⟩
    exact ⟨⟨⟨hrows, hcolumns⟩, hreference⟩, (values_beq_iff hrows hcolumns).2 hentries⟩

/-- A matrix compares equal to itself if it has no NaN. -/
theorem beq_self_iff : (m == m) = true ↔ ∀ i j v, m.get? i j = some v → v.isNaN = false := by
  rw [beq_iff]
  constructor
  · intro h i j v hv
    exact Scalar.beq_self_iff.1 (h.get?_eq i j v v hv hv)
  · intro h
    refine ⟨rfl, rfl, rfl, fun i j v w hv hw => ?_⟩
    obtain rfl := Option.some.inj (hv.symm.trans hw)
    exact Scalar.beq_self_iff.2 (h i j v hv)

end NormMatrix

/-- Two tables are the same if they have the same values, columns and reference row.  How many rows
there are is not compared. -/
def FlatTable.same (a b : FlatTable) : Bool :=
  a.values == b.values && a.columns == b.columns && a.reference == b.reference

/-- The values and the number of columns leave only one number of rows. -/
theorem NormMatrix.same_flat (m m' : NormMatrix) : m.flat.same m'.flat = (m == m') := by
  rw [Bool.eq_iff_iff, beq_iff]
  change (m.values == m'.values && m.columns == m'.columns && m.reference == m'.reference) = true ↔
    _
  simp only [Bool.and_eq_true, beq_iff_eq]
  constructor
  · rintro ⟨⟨hvalues, hcolumns⟩, hreference⟩
    have hsize : m.values.size = m'.values.size := (Array.isEqv_iff_rel.1 hvalues).1
    have hrows : m.rows = m'.rows := by
      rw [m.size_eq, m'.size_eq, hcolumns] at hsize
      exact Nat.eq_of_mul_eq_mul_right m'.columns_pos hsize
    exact ⟨hrows, hcolumns, hreference, (values_beq_iff hrows hcolumns).1 hvalues⟩
  · rintro ⟨hrows, hcolumns, hreference, hentries⟩
    exact ⟨⟨(values_beq_iff hrows hcolumns).2 hentries, hcolumns⟩, hreference⟩

/-! ### Built matrices -/

namespace Operation

/-- The reference row of a built matrix is infinite. -/
theorem get?_reference (op : Operation) {m : NormMatrix} (hm : op.run = .ok (.matrix m)) {j : ℕ}
    (hj : j < m.columns) : m.get? m.reference j = some Scalar.infinity := by
  rcases op.exists_builder hm with ⟨_, _, _, h, -⟩ | ⟨_, _, h, -⟩
  · obtain ⟨n, hc, hr, -, rfl⟩ := exists_of_normMatrix_eq_ok h
    exact (NormMatrix.get?_ofFn hr hj).trans (congrArg some (NormMatrix.cell_self _ _ _))
  · obtain ⟨shape, hc, hr, -, rfl⟩ := exists_of_variableMatrix_eq_ok h
    exact (NormMatrix.get?_ofFn hr hj).trans (congrArg some (NormMatrix.cell_self _ _ _))

/-- **What can be read of a matrix that an operation has built.**  It has a value for every row and
column, a column at least, and an infinite reference row.  There is an entry for every position in
range and for no other, and it is the same by itself, in its row, in its column and among all rows;
there are as many columns, and as many rows of as many entries, as the matrix says.  As long as
places are machine words, reading the values by slices, steps and chunks gives the same; and if
there is room for them, they are those that are written in place, and the rows are copied if there
is room for the copies.  Two matrices compare equal exactly if they have the same
layout and their entries compare equal, so a matrix differs from its copy exactly if it has a NaN. -/
theorem readings_agree (op : Operation) {m : NormMatrix} (hm : op.run = .ok (.matrix m)) :
    (m.values.size = m.rows * m.columns ∧ 0 < m.columns ∧ m.reference < m.rows ∧
      ∀ j < m.columns, m.get? m.reference j = some Scalar.infinity) ∧
    m.Coherent ∧
    (op.IndicesFit → m.flat.Reads m ∧
      (AllGranted op.requests → op.guarded = some (.ok (.table m.flat)) ∧
        ((Request.mk m.rows 24).Granted → m.flat.intoRows? = some m.toRows))) ∧
    (∀ m', ((m == m') = true ↔ m.SameEntries m') ∧ m.flat.same m'.flat = (m == m')) ∧
    ((m == m) = true ↔ ∀ i j v, m.get? i j = some v → v.isNaN = false) := by
  refine ⟨⟨m.size_eq, m.columns_pos, m.reference_lt, fun j hj => op.get?_reference hm hj⟩,
    m.coherent, fun hfit => ⟨m.reads_flat (op.places_lt hfit hm), fun hroom => ⟨?_, ?_⟩⟩,
    fun m' => ⟨NormMatrix.beq_iff, m.same_flat m'⟩, NormMatrix.beq_self_iff⟩
  · rw [op.guarded_eq_if hfit, if_pos hroom, hm]
    rfl
  · intro hcopies
    rw [m.intoRows?_flat (op.values_granted hroom hm), if_pos hcopies]

/-- Two series of three rows, measured from the second row, with a NaN in the last one. -/
theorem readings_agree_mixed :
    ∃ m, run (.normMatrix .euclidean [[[0, 5], [3, 1], [0 / 0, 2]], [[1], [2], [7]]] 1) =
        .ok (.matrix m) ∧
      m.values.size = 3 * 2 ∧ m.get? 1 0 = some Scalar.infinity ∧ m.Shows 2 1 5 ∧
      m.toRows.length = 3 ∧ m.flat.column? 1 = some (some [1, Scalar.infinity, 5]) ∧
      m.flat.intoRows? = some m.toRows ∧ m.get? 2 0 = some (0 / 0) ∧ ¬ (m == m) = true := by
  have hread : (Proximity.normMatrix .euclidean [[[0, 5], [3, 1], [0 / 0, 2]], [[1], [2], [7]]] 1).map
      (fun m => ((m.rows, m.columns, m.reference), m.get? 2 0, m.get? 2 1, m.column? 1)) =
        .ok ((3, 2, 1), some (0 / 0), some 5, some [1, Scalar.infinity, 5]) := by
    decide +kernel
  obtain ⟨m, hmatrix, hentries⟩ := map_eq_ok_iff.1 hread
  obtain ⟨hlayout, hnan, hlast, hcolumn⟩ := by simpa only [Prod.mk.injEq] using hentries
  obtain ⟨hrows, hcolumns, hreference⟩ := hlayout
  have hm : run (.normMatrix .euclidean [[[0, 5], [3, 1], [0 / 0, 2]], [[1], [2], [7]]] 1) =
      .ok (.matrix m) := map_eq_ok_iff.2 ⟨m, hmatrix, rfl⟩
  have hfit : IndicesFit (.normMatrix .euclidean
      [[[0, 5], [3, 1], [0 / 0, 2]], [[1], [2], [7]]] 1) := by
    change ∀ rows ∈ _, _
    decide
  have hroom : AllGranted (requests (.normMatrix .euclidean
      [[[0, 5], [3, 1], [0 / 0, 2]], [[1], [2], [7]]] 1)) := by decide
  obtain ⟨⟨hsize, -, -, hinfinite⟩, hcoherent, hflat, -, hself⟩ := readings_agree _ hm
  obtain ⟨hreads, hcopies⟩ := hflat hfit
  rw [hrows, hcolumns] at hsize
  rw [hcolumns, hreference] at hinfinite
  refine ⟨m, hm, hsize, hinfinite 0 (by decide), hcoherent.shows 2 1 5 hlast,
    hcoherent.length_toRows.trans hrows, ?_, (hcopies hroom).2 (hrows ▸ by decide), hnan,
    fun h => ?_⟩
  · rw [hreads.column?_eq, hcolumn]
  · exact absurd (hself.1 h 2 0 _ hnan) (by decide)

end Operation

end Proximity
