import Proximity.Engine
import Proximity.Norm.Variants
import Proximity.Proofs.NormMatrix.InPlace
import Proximity.Proofs.ParallelSeries

/-!
# The entries of a built norm matrix

A matrix of several series has one column per series.  The column of a series holds the distances of
its reference row from its other rows, in this order of the operands, and does not depend on the
other series.

* `normMatrix_eq_error_iff` : a matrix is refused exactly if the series are.
* `seriesDistance_eq` : a distance, from the rows that it is measured between.
* `values_normMatrix` : the values of a matrix, filled in place.
* `normMatrix_entries` : **what a built matrix holds**.
-/

namespace Proximity

variable {series : List Observations} {rows : Observations} {n s t reference : ℕ}

theorem normMatrix_of_parallelRows (norm : Norm) (h : parallelRows series reference = .ok n) :
    ∃ hc hr, normMatrix norm series reference =
      .ok (.ofFn n series.length reference hc hr
        (seriesDistance norm (series.map List.toArray).toArray reference)) := by
  refine ⟨(of_parallelRows h).1, (of_parallelRows h).2, ?_⟩
  unfold normMatrix
  split
  · rename_i heq
    rw [h] at heq
    cases heq
  · rename_i heq
    obtain rfl := Except.ok.inj (h.symm.trans heq)
    rfl

/-- A matrix is refused exactly if the series are, with the same fault. -/
theorem normMatrix_eq_error_iff {norm : Norm} {e : InputError} :
    normMatrix norm series reference = .error e ↔ parallelRows series reference = .error e := by
  cases h : parallelRows series reference with
  | error e' =>
    have hmatrix : normMatrix norm series reference = .error e' := by
      unfold normMatrix
      split
      · rename_i heq
        rw [h] at heq
        rw [Except.error.inj heq]
      · rename_i heq
        rw [h] at heq
        cases heq
    rw [hmatrix]
    simp only [Except.error.injEq]
  | ok n =>
    obtain ⟨hc, hr, hmatrix⟩ := normMatrix_of_parallelRows norm h
    rw [hmatrix]
    simp only [reduceCtorEq]

theorem exists_of_normMatrix_eq_ok {norm : Norm} {m : NormMatrix}
    (h : normMatrix norm series reference = .ok m) :
    ∃ n hc hr, parallelRows series reference = .ok n ∧
      m = .ofFn n series.length reference hc hr
        (seriesDistance norm (series.map List.toArray).toArray reference) := by
  cases hn : parallelRows series reference with
  | error e =>
    rw [normMatrix_eq_error_iff.2 hn] at h
    cases h
  | ok n =>
    obtain ⟨hc, hr, hmatrix⟩ := normMatrix_of_parallelRows norm hn
    exact ⟨n, hc, hr, rfl, Except.ok.inj (h.symm.trans hmatrix)⟩

/-- A distance, from the rows that it is measured between. -/
theorem seriesDistance_eq (norm : Norm) {x y : List Float} (hrows : series[s]? = some rows)
    (hx : rows[reference]? = some x) (hy : rows[t]? = some y) :
    seriesDistance norm (series.map List.toArray).toArray reference t s = norm.distance x y := by
  simp [seriesDistance, hrows, hx, hy]

/-! ### Columns and entries -/

/-- The column of a series is the column of the matrix of that series alone. -/
theorem column?_normMatrix (hpar : Parallel series n) (hs : series[s]? = some rows)
    {hc : 0 < series.length} {hr : reference < n} (norm : Norm) :
    ∃ single column, normMatrix norm [rows] reference = .ok single ∧ single.columns = 1 ∧
      single.column? 0 = some column ∧
      (NormMatrix.ofFn n series.length reference hc hr
        (seriesDistance norm (series.map List.toArray).toArray reference)).column? s =
          some column := by
  have hmem := List.mem_of_getElem? hs
  obtain ⟨dims, hrows⟩ := hpar.rectangular rows hmem
  obtain rfl := hpar.length_eq rows hmem
  obtain ⟨hslt, -⟩ := List.getElem?_eq_some_iff.1 hs
  obtain ⟨hc', hr', hmatrix⟩ :=
    normMatrix_of_parallelRows norm (hrows.parallelRows_singleton hr)
  refine ⟨_, _, hmatrix, rfl, NormMatrix.column?_ofFn Nat.one_pos, ?_⟩
  rw [NormMatrix.column?_ofFn hslt]
  -- the same entry comes from either list of series
  have hcell : ∀ t,
      NormMatrix.cell reference
        (seriesDistance norm (series.map List.toArray).toArray reference) t s =
      NormMatrix.cell reference
        (seriesDistance norm ([rows].map List.toArray).toArray reference) t 0 := by
    intro t
    simp [NormMatrix.cell, seriesDistance, hs]
  simp only [hcell]

/-- The distances of row `t` from the reference row, in every series. -/
theorem map_seriesDistance (norm : Norm) (series : List Observations) (reference t : ℕ) :
    (List.range series.length).map
        (seriesDistance norm (series.map List.toArray).toArray reference t) =
      series.map fun rows => norm.distance (rows.getD reference []) (rows.getD t []) := by
  refine List.ext_getElem (by simp) fun s hs _ => ?_
  have hs : s < series.length := by simpa using hs
  simp [seriesDistance, hs]

/-- **The values of a matrix** are filled in place: zeros, an infinite reference row, and then one
row after another with its distances in every series. -/
theorem values_normMatrix {norm : Norm} {m : NormMatrix}
    (hm : normMatrix norm series reference = .ok m) :
    m.values = NormMatrix.inPlace m.rows m.columns reference fun t =>
      series.map fun rows => norm.distance (rows.getD reference []) (rows.getD t []) := by
  obtain ⟨n, hc, hr, -, rfl⟩ := exists_of_normMatrix_eq_ok hm
  exact NormMatrix.values_ofFn hc hr fun t _ _ => (map_seriesDistance norm series reference t).symm

/-- **What a built matrix holds.**  A matrix is refused exactly if its series are, with the same
fault.  Otherwise it has the common number of rows, one column per series and the given reference.
The entries of the reference row are infinite, and any other entry is the distance of the reference
row from its row, in the series of its column.  A column is the one of the matrix of its series
alone, and the matrices of two and of three series are built like any other. -/
theorem normMatrix_entries (norm : Norm) (series : List Observations) (reference : ℕ) :
    (∀ e, normMatrix norm series reference = .error e ↔ parallelRows series reference = .error e) ∧
    (∀ m, normMatrix norm series reference = .ok m →
      series ≠ [] ∧ (∀ rows ∈ series, rows.length = m.rows) ∧ m.columns = series.length ∧
      m.reference = reference ∧
      ∀ (s : ℕ) (rows : Observations), series[s]? = some rows →
        m.get? reference s = some Scalar.infinity ∧
        (∃ x, rows[reference]? = some x ∧
          ∀ (t : ℕ) (y : List Float), t ≠ reference → rows[t]? = some y →
            m.get? t s = some (norm.distance x y)) ∧
        ∃ single column, normMatrix norm [rows] reference = .ok single ∧ single.columns = 1 ∧
          single.column? 0 = some column ∧ m.column? s = some column) ∧
    (∀ a b, pairMatrix norm a b reference = normMatrix norm [a, b] reference) ∧
    ∀ a b c, tripleMatrix norm a b c reference = normMatrix norm [a, b, c] reference := by
  refine ⟨fun e => normMatrix_eq_error_iff, ?_, fun _ _ => rfl, fun _ _ _ => rfl⟩
  intro m hm
  obtain ⟨n, hc, hr, hn, rfl⟩ := exists_of_normMatrix_eq_ok hm
  obtain ⟨hpar, -⟩ := parallelRows_eq_ok_iff.1 hn
  refine ⟨hpar.ne_nil, hpar.length_eq, rfl, rfl, ?_⟩
  intro s rows hs
  have hlen : rows.length = n := hpar.length_eq rows (List.mem_of_getElem? hs)
  obtain ⟨hslt, -⟩ := List.getElem?_eq_some_iff.1 hs
  have hx := List.getElem?_eq_getElem (hlen ▸ hr : reference < rows.length)
  refine ⟨?_, ⟨_, hx, ?_⟩, column?_normMatrix hpar hs norm⟩
  · rw [NormMatrix.get?_ofFn hr hslt, NormMatrix.cell_self]
  · intro t y ht hy
    obtain ⟨htlt, -⟩ := List.getElem?_eq_some_iff.1 hy
    rw [NormMatrix.get?_ofFn (hlen ▸ htlt) hslt, NormMatrix.cell_of_ne ht,
      seriesDistance_eq norm hs hx hy]

/-- Two series under a one-sided norm, measured from the second of three rows. -/
theorem normMatrix_entries_excess :
    parallelRows [[[0, 5], [3, 1], [0 / 0, 2]], [[1], [2], [7]]] 1 = .ok 3 ∧
    ∃ m, normMatrix .excess [[[0, 5], [3, 1], [0 / 0, 2]], [[1], [2], [7]]] 1 = .ok m ∧
      m.columns = 2 ∧ m.get? 1 0 = some Scalar.infinity ∧ m.get? 0 0 = some 3 ∧
      m.get? 0 1 = some 1 ∧ m.get? 2 1 = some 0 := by
  have hn : parallelRows [[[0, 5], [3, 1], [0 / 0, 2]], [[1], [2], [7]]] 1 = .ok 3 := by decide
  obtain ⟨_, _, hm⟩ := normMatrix_of_parallelRows .excess hn
  obtain ⟨-, hentries, -⟩ :=
    normMatrix_entries .excess [[[0, 5], [3, 1], [0 / 0, 2]], [[1], [2], [7]]] 1
  obtain ⟨-, -, hcolumns, -, hcolumn⟩ := hentries _ hm
  obtain ⟨hinfinite, ⟨x, hx, hfirst⟩, -⟩ := hcolumn 0 _ rfl
  obtain ⟨-, ⟨z, hz, hsecond⟩, -⟩ := hcolumn 1 _ rfl
  obtain rfl : [3, 1] = x := Option.some.inj hx
  obtain rfl : [2] = z := Option.some.inj hz
  refine ⟨hn, _, hm, hcolumns, hinfinite, ?_, ?_, ?_⟩
  · exact (hfirst 0 [0, 5] (by decide) rfl).trans (by decide)
  · exact (hsecond 0 [1] (by decide) rfl).trans (by decide)
  · exact (hsecond 2 [7] (by decide) rfl).trans (by decide)

end Proximity
