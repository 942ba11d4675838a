import Proximity.Proofs.Engine.Product
import Proximity.Proofs.NormMatrix.Variables

/-!
# The tables of an engine

The operations of an engine measure the same distances.  A row of a norm matrix holds, for each of
the series, the distance of the reference row from it, and the distance in the product space of two
series is the larger of the two entries.  Further series add columns and leave the others alone, and
since a distance does not depend on the order of its operands, the row may change places with the
reference row.

* `row?_normMatrix` : **a row of a norm matrix**.
* `column?_normMatrix_append` : the columns of further series.
* `NormMode.row?_normMatrix_comm` : a row and the reference row may be exchanged.
* `Engine.operations_agree` : **what the operations of an engine have in common**.
-/

namespace Proximity

variable {series more : List Observations} {n r t : ℕ}

/-! ### Norm matrices -/

/-- **A row of a norm matrix** holds the distances of the reference row from it, series by
series. -/
theorem row?_normMatrix (norm : Norm) (h : Parallel series n) (hr : r < n) (ht : t < n)
    (hne : t ≠ r) :
    ∃ m, normMatrix norm series r = .ok m ∧ m.rows = n ∧ m.columns = series.length ∧
      m.reference = r ∧
      m.row? t = some (series.map fun rows => norm.distance (rows.getD r []) (rows.getD t [])) := by
  obtain ⟨_, _, hmatrix⟩ := normMatrix_of_parallelRows norm (parallelRows_eq_ok_iff.2 ⟨h, hr⟩)
  refine ⟨_, hmatrix, rfl, rfl, rfl, ?_⟩
  rw [NormMatrix.row?_ofFn ht]
  refine congrArg some (List.ext_getElem (by simp) fun s hs hs' => ?_)
  rw [List.getElem_map, List.getElem_range, NormMatrix.cell_of_ne hne, List.getElem_map]
  have hlt : s < series.length := by simpa using hs
  simp [seriesDistance, hlt]

/-- Further series leave the columns of the first ones alone. -/
theorem column?_normMatrix_append {norm : Norm} {m m' : NormMatrix}
    (hm : normMatrix norm series r = .ok m) (hm' : normMatrix norm (series ++ more) r = .ok m') :
    m'.rows = m.rows ∧ m'.reference = m.reference ∧
      ∀ s < series.length, m'.column? s = m.column? s := by
  obtain ⟨n, hc, hr, hn, rfl⟩ := exists_of_normMatrix_eq_ok hm
  obtain ⟨n', hc', hr', hn', rfl⟩ := exists_of_normMatrix_eq_ok hm'
  obtain ⟨hpar, -⟩ := parallelRows_eq_ok_iff.1 hn
  obtain ⟨hpar', -⟩ := parallelRows_eq_ok_iff.1 hn'
  obtain ⟨rows, hmem⟩ := List.exists_mem_of_ne_nil series hpar.ne_nil
  have hrows : n' = n := by
    rw [← hpar.length_eq rows hmem, hpar'.length_eq rows (List.mem_append_left more hmem)]
  refine ⟨hrows, rfl, fun s hs => ?_⟩
  -- either column is the one of the series alone
  have hseries := List.getElem?_eq_getElem hs
  have hseries' : (series ++ more)[s]? = some series[s] := by
    rw [List.getElem?_append_left hs, hseries]
  obtain ⟨single, column, hsingle, -, halone, hcolumn⟩ := column?_normMatrix hpar hseries norm
  obtain ⟨single', column', hsingle', -, halone', hcolumn'⟩ :=
    column?_normMatrix hpar' hseries' norm
  obtain rfl := Except.ok.inj (hsingle.symm.trans hsingle')
  obtain rfl := Option.some.inj (halone.symm.trans halone')
  rw [hcolumn, hcolumn']

/-- A row and the reference row may be exchanged. -/
theorem NormMode.row?_normMatrix_comm (mode : NormMode) (h : Parallel series n) (hr : r < n)
    (ht : t < n) (hne : t ≠ r) {m m' : NormMatrix} (hm : normMatrix mode.norm series r = .ok m)
    (hm' : normMatrix mode.norm series t = .ok m') : m'.row? r = m.row? t := by
  obtain ⟨k, hk, -, -, -, hrow⟩ := row?_normMatrix mode.norm h hr ht hne
  obtain ⟨k', hk', -, -, -, hrow'⟩ := row?_normMatrix mode.norm h ht hr hne.symm
  obtain rfl := Except.ok.inj (hm.symm.trans hk)
  obtain rfl := Except.ok.inj (hm'.symm.trans hk')
  rw [hrow, hrow']
  refine congrArg some (List.map_congr_left fun rows hmem => ?_)
  have hlen := h.length_eq rows hmem
  have hx := List.getElem?_eq_getElem (hlen ▸ hr : r < rows.length)
  have hy := List.getElem?_eq_getElem (hlen ▸ ht : t < rows.length)
  rw [List.getD_eq_getElem?_getD, List.getD_eq_getElem?_getD, hx, hy]
  exact mode.distance_comm (h.comparable hmem hy hx).length_eq

/-! ### Engines -/

/-- **What the operations of an engine have in common.**  An engine has a matrix for two and for
three parallel series, under any configuration.  The row of the matrix of two series holds the
distances in the two series, and the distance in the product space is the larger one of them.  The
row may be exchanged with the reference row, and the matrix of three series has the same first two
columns.  The table of the variables of a series is the same for every engine. -/
theorem Engine.operations_agree (engine : Engine) {a b c : Observations}
    (h : Parallel [a, b, c] n) {x₁ x₂ y₁ y₂ : List Float} (hx₁ : a[r]? = some x₁)
    (hx₂ : a[t]? = some x₂) (hy₁ : b[r]? = some y₁) (hy₂ : b[t]? = some y₂) (hne : t ≠ r) :
    ∃ m m' m₃ m₃' table u v,
      engine.pairMatrix a b r = .ok m ∧ engine.pairMatrix a b t = .ok m' ∧
      engine.tripleMatrix a b c r = .ok m₃ ∧ engine.tripleMatrix a b c t = .ok m₃' ∧
      m.row? t = some [u, v] ∧
      engine.distance x₁ x₂ = .ok u ∧ engine.distance y₁ y₂ = .ok v ∧
      engine.jointDistance x₁ y₁ x₂ y₂ = .ok (Scalar.larger u v) ∧
      m'.row? r = m.row? t ∧ m₃'.row? r = m₃.row? t ∧
      m.columns = 2 ∧ m₃.columns = 3 ∧ m₃.rows = m.rows ∧ m₃.reference = m.reference ∧
      (∀ s < 2, m₃.column? s = m.column? s) ∧
      ∀ other : Engine,
        other.answer (.variableMatrix a r) = .silent (.ok (.matrix table)) := by
  have ha : a ∈ [a, b] := List.mem_cons_self
  have hb : b ∈ [a, b] := List.mem_cons_of_mem a List.mem_cons_self
  have h₂ : Parallel [a, b] n := Parallel.of_append h (List.cons_ne_nil a [b])
  have hr := h₂.lt_of_getElem? ha hx₁
  have ht := h₂.lt_of_getElem? ha hx₂
  obtain ⟨m, hm, -, hcolumns, -, hrow⟩ := row?_normMatrix engine.norm h₂ hr ht hne
  obtain ⟨m', hm', -⟩ := row?_normMatrix engine.norm h₂ ht hr hne.symm
  obtain ⟨m₃, hm₃, -, hcolumns₃, -⟩ := row?_normMatrix engine.norm h hr ht hne
  obtain ⟨m₃', hm₃', -⟩ := row?_normMatrix engine.norm h ht hr hne.symm
  obtain ⟨hrows₃, hreference₃, hcolumn₃⟩ := column?_normMatrix_append hm hm₃
  obtain ⟨table, htable⟩ : ∃ table, variableMatrix a r = .ok table := by
    obtain ⟨dims, hrows⟩ := h₂.rectangular a ha
    obtain ⟨_, _, hmatrix⟩ :=
      variableMatrix_of_shape (hrows.shape_eq "series") (h₂.length_eq a ha ▸ hr)
    exact ⟨_, hmatrix⟩
  have hx := h₂.comparable ha hx₁ hx₂
  have hy := h₂.comparable hb hy₁ hy₂
  refine ⟨m, m', m₃, m₃', table, _, _, hm, hm', hm₃, hm₃', ?_, engine.distance_of_comparable hx,
    engine.distance_of_comparable hy, engine.jointDistance_of_comparable hx hy,
    engine.config.norm.row?_normMatrix_comm h₂ hr ht hne hm hm',
    engine.config.norm.row?_normMatrix_comm h hr ht hne hm₃ hm₃', hcolumns, hcolumns₃, hrows₃,
    hreference₃, hcolumn₃, fun other => ?_⟩
  · rw [hrow]
    simp [List.getD_eq_getElem?_getD, hx₁, hx₂, hy₁, hy₂]
  · rw [answer, htable]
    rfl

/-- Three series of two rows, under the Euclidean norm. -/
theorem Engine.operations_agree_euclidean :
    Parallel [[[0, 0], [3, 4]], [[1], [2]], [[5], [7]]] 2 ∧
    ∃ m m₃, Engine.pairMatrix ⟨.euclidean, 2000⟩ [[0, 0], [3, 4]] [[1], [2]] 0 = .ok m ∧
      Engine.tripleMatrix ⟨.euclidean, 2000⟩ [[0, 0], [3, 4]] [[1], [2]] [[5], [7]] 0 = .ok m₃ ∧
      m.row? 1 = some [5, 1] ∧
      Engine.jointDistance ⟨.euclidean, 2000⟩ [0, 0] [1] [3, 4] [2] = .ok 5 ∧
      m₃.column? 0 = m.column? 0 ∧ m₃.column? 1 = m.column? 1 := by
  have hrows : parallelRows [[[0, 0], [3, 4]], [[1], [2]], [[5], [7]]] 0 = .ok 2 := by decide
  obtain ⟨hparallel, -⟩ := parallelRows_eq_ok_iff.1 hrows
  obtain ⟨m, -, m₃, -, -, u, v, hm, -, hm₃, -, hrow, hu, hv, hjoint, -, -, -, -, -, -, hcolumn,
      -⟩ :=
    Engine.operations_agree ⟨.euclidean, 2000⟩ hparallel (r := 0) (t := 1) rfl rfl rfl rfl
      (by decide)
  have hdistances : Engine.distance ⟨.euclidean, 2000⟩ [0, 0] [3, 4] = .ok 5 ∧
      Engine.distance ⟨.euclidean, 2000⟩ [1] [2] = .ok 1 := by decide +kernel
  obtain rfl := Except.ok.inj (hdistances.1.symm.trans hu)
  obtain rfl := Except.ok.inj (hdistances.2.symm.trans hv)
  have hlarger : Scalar.larger 5 1 = 5 := by decide
  rw [hlarger] at hjoint
  exact ⟨hparallel, m, m₃, hm, hm₃, hrow, hjoint, hcolumn 0 (by decide), hcolumn 1 (by decide)⟩

end Proximity
