import Proximity.Proofs.Norm.Largest
import Proximity.Proofs.NormMatrix.Build

/-!
# One column per variable

The table of the variables of a series holds plain absolute differences and is built by itself.  It
is also the table of the one-dimensional series of the single variables under the maximum norm, and
the maximum norm of the whole series takes the largest entry of each of its rows.

* `Observations.project` : the series of one variable.
* `Observations.Rectangular.row?_variables` : a row of the table holds the absolute differences.
* `Observations.Rectangular.maximum_projections` : **the table of the variables is a table under the
  maximum norm**.
* `values_variableMatrix` : the values of the table, filled in place.
* `variableMatrix_eq_maximum` : both ways to the maximum norm.
-/

namespace Proximity

open NormMatrix

variable {rows : Observations} {dims reference t v : ℕ} {x y : List Float}

theorem variableMatrix_of_shape {shape : Shape} (h : rows.shape "series" = .ok shape)
    (hr : reference < shape.rows) :
    ∃ hc hr, variableMatrix rows reference =
      .ok (.ofFn shape.rows shape.dims reference hc hr
        (variableDistance (rows.map List.toArray).toArray reference)) := by
  have hcheck : checkReference reference shape.rows = .ok () := if_pos hr
  refine ⟨dims_pos_of_shape h, hr, ?_⟩
  unfold variableMatrix
  split
  · rename_i heq
    rw [h] at heq
    cases heq
  · rename_i heq
    obtain rfl := Except.ok.inj (h.symm.trans heq)
    split
    · rename_i heq
      rw [hcheck] at heq
      cases heq
    · rfl

/-- The table of the variables is refused exactly if the series or the reference is, with the same
fault. -/
theorem variableMatrix_eq_error_iff {e : InputError} :
    variableMatrix rows reference = .error e ↔
      (rows.shape "series" >>= fun shape => checkReference reference shape.rows) = .error e := by
  unfold variableMatrix
  split
  · rename_i e' h
    have hcheck : (rows.shape "series" >>= fun shape => checkReference reference shape.rows) =
        .error e' := by rw [h]; rfl
    rw [hcheck]
    simp only [Except.error.injEq]
  · rename_i shape h
    have hbind : (rows.shape "series" >>= fun shape => checkReference reference shape.rows) =
        checkReference reference shape.rows := by rw [h]; rfl
    rw [hbind]
    split
    · rename_i e' hcheck
      rw [hcheck]
      simp only [Except.error.injEq]
    · rename_i hcheck
      refine iff_of_false nofun fun hrefused => ?_
      rw [hcheck] at hrefused
      cases hrefused

theorem exists_of_variableMatrix_eq_ok {m : NormMatrix}
    (h : variableMatrix rows reference = .ok m) :
    ∃ shape hc hr, rows.shape "series" = .ok shape ∧
      m = .ofFn shape.rows shape.dims reference hc hr
        (variableDistance (rows.map List.toArray).toArray reference) := by
  unfold variableMatrix at h
  split at h
  · cases h
  · rename_i shape hshape
    split at h
    · cases h
    · exact ⟨shape, _, _, hshape, (Except.ok.inj h).symm⟩

/-- An entry, from the difference that it is the absolute value of. -/
theorem variableDistance_eq {d : Float} (hx : rows[reference]? = some x) (hy : rows[t]? = some y)
    (hd : (differences x y)[v]? = some d) :
    variableDistance (rows.map List.toArray).toArray reference t v = d.abs := by
  obtain ⟨a, b, ha, hb, rfl⟩ := getElem?_differences_eq_some.1 hd
  simp [variableDistance, hx, hy, ha, hb]

namespace Observations

/-- The series of one variable. -/
def project (rows : Observations) (v : ℕ) : Observations := rows.map fun row => row[v]?.toList

@[simp] theorem length_project (rows : Observations) (v : ℕ) :
    (rows.project v).length = rows.length := List.length_map _

theorem getElem?_project {a : Float} (hx : rows[t]? = some x) (ha : x[v]? = some a) :
    (rows.project v)[t]? = some [a] := by
  rw [project, List.getElem?_map, hx, Option.map_some, ha]
  rfl

/-- The series of a variable is a table. -/
theorem Rectangular.project (h : rows.Rectangular dims) (hv : v < dims) :
    (rows.project v).Rectangular 1 := by
  refine ⟨by simpa using h.rows_pos, Nat.one_pos, ?_⟩
  intro row hrow
  obtain ⟨x, hx, rfl⟩ := List.mem_map.1 hrow
  rw [List.getElem?_eq_getElem (h.length_eq x hx ▸ hv : v < x.length)]
  rfl

/-- The series of all variables are parallel. -/
theorem Rectangular.parallel_projections (h : rows.Rectangular dims) :
    Parallel ((List.range dims).map rows.project) rows.length := by
  refine ⟨?_, ?_, ?_⟩
  · simpa using h.dims_pos.ne'
  · intro series hmem
    obtain ⟨v, -, rfl⟩ := List.mem_map.1 hmem
    exact length_project rows v
  · intro series hmem
    obtain ⟨v, hv, rfl⟩ := List.mem_map.1 hmem
    exact ⟨1, h.project (List.mem_range.1 hv)⟩

/-- Two rows of a table have as many differences as the table has variables. -/
theorem Rectangular.length_differences (h : rows.Rectangular dims) (hx : rows[reference]? = some x)
    (hy : rows[t]? = some y) : (differences x y).length = dims := by
  rw [differences, List.length_zipWith, h.length_getElem? hx, h.length_getElem? hy, Nat.min_self]

/-- The maximum norm in the series of one variable is the entry of that variable. -/
theorem Rectangular.seriesDistance_projections (h : rows.Rectangular dims)
    (hr : reference < rows.length) (ht : t < rows.length) (hv : v < dims) :
    seriesDistance .maximum
        ((((List.range dims).map rows.project).map List.toArray).toArray) reference t v =
      variableDistance (rows.map List.toArray).toArray reference t v := by
  have hx := List.getElem?_eq_getElem hr
  have hy := List.getElem?_eq_getElem ht
  have hd := List.getElem?_eq_getElem (h.length_differences hx hy ▸ hv)
  obtain ⟨a, b, ha, hb, hab⟩ := getElem?_differences_eq_some.1 hd
  have hseries : ((List.range dims).map rows.project)[v]? = some (rows.project v) := by
    rw [List.getElem?_map, List.getElem?_range hv, Option.map_some]
  rw [seriesDistance_eq .maximum hseries (getElem?_project hx ha) (getElem?_project hy hb),
    variableDistance_eq hx hy hd, ← hab]
  exact Norm.maximum_accumulate_zero (a - b)

/-- **The table of the variables is a table under the maximum norm**: the one of the series of the
single variables. -/
theorem Rectangular.maximum_projections (h : rows.Rectangular dims) (hr : reference < rows.length)
    {hc : 0 < dims} :
    normMatrix .maximum ((List.range dims).map rows.project) reference =
      .ok (.ofFn rows.length dims reference hc hr
        (variableDistance (rows.map List.toArray).toArray reference)) := by
  obtain ⟨hc', hr', hmatrix⟩ := normMatrix_of_parallelRows .maximum
    (parallelRows_eq_ok_iff.2 ⟨h.parallel_projections, hr⟩)
  have hcolumns : ((List.range dims).map rows.project).length = dims := by
    rw [List.length_map, List.length_range]
  rw [hmatrix]
  refine congrArg Except.ok (ext_get? rfl hcolumns rfl ?_)
  intro i hi j hj
  have hjd : j < dims := hcolumns ▸ hj
  refine (get?_ofFn hi hj).trans ((congrArg some ?_).trans (get?_ofFn hi hjd).symm)
  rw [cell, cell, h.seriesDistance_projections hr hi hjd]

/-- The entries of a row, from its differences to the reference row. -/
theorem Rectangular.map_variableDistance (h : rows.Rectangular dims)
    (hx : rows[reference]? = some x) (hy : rows[t]? = some y) :
    (List.range dims).map (variableDistance (rows.map List.toArray).toArray reference t) =
      (differences x y).map Float.abs := by
  have hlen := h.length_differences hx hy
  refine List.ext_getElem (by simp [hlen]) fun v _ hv => ?_
  have hd := List.getElem?_eq_getElem (by simpa using hv : v < (differences x y).length)
  rw [List.getElem_map, List.getElem_range, List.getElem_map, variableDistance_eq hx hy hd]

/-- A row of the table of the variables holds the absolute differences. -/
theorem Rectangular.row?_variables (h : rows.Rectangular dims) {hc : 0 < dims}
    {hr : reference < rows.length} (ht : t ≠ reference) (hx : rows[reference]? = some x)
    (hy : rows[t]? = some y) :
    (NormMatrix.ofFn rows.length dims reference hc hr
        (variableDistance (rows.map List.toArray).toArray reference)).row? t =
      some ((differences x y).map Float.abs) := by
  obtain ⟨htlt, -⟩ := List.getElem?_eq_some_iff.1 hy
  rw [row?_ofFn htlt, ← h.map_variableDistance hx hy]
  refine congrArg some (List.map_congr_left fun v _ => ?_)
  rw [cell_of_ne ht]

end Observations

/-- **The values of the table** are filled in place: zeros, an infinite reference row, and then one
row after another with its absolute differences. -/
theorem values_variableMatrix {m : NormMatrix} (hm : variableMatrix rows reference = .ok m) :
    m.values = NormMatrix.inPlace m.rows m.columns reference fun t =>
      (differences (rows.getD reference []) (rows.getD t [])).map Float.abs := by
  obtain ⟨shape, hc, hr, hshape, rfl⟩ := exists_of_variableMatrix_eq_ok hm
  obtain ⟨hlen, hrows⟩ := Observations.shape_eq_ok_iff_rectangular.1 hshape
  refine NormMatrix.values_ofFn hc hr fun t ht _ => ?_
  have hx := List.getElem?_eq_getElem (hlen ▸ hr : reference < rows.length)
  have hy := List.getElem?_eq_getElem (hlen ▸ ht : t < rows.length)
  rw [hrows.map_variableDistance hx hy, List.getD_eq_getElem?_getD, List.getD_eq_getElem?_getD, hx,
    hy]
  rfl

/-- **Both ways to the maximum norm.**  The table of the variables of a series is the table of the
one-dimensional series of the variables under the maximum norm.  In the table of the whole series
under the maximum norm, the entry of a row is a NaN if an entry of the same row of the table of the
variables is one, and otherwise it is the largest of these entries. -/
theorem variableMatrix_eq_maximum {what : String} {shape : Shape}
    (hshape : rows.shape what = .ok shape) (hr : reference < shape.rows) :
    ∃ m single, variableMatrix rows reference = .ok m ∧
      normMatrix .maximum ((List.range shape.dims).map rows.project) reference = .ok m ∧
      m.rows = shape.rows ∧ m.columns = shape.dims ∧ m.reference = reference ∧
      normMatrix .maximum [rows] reference = .ok single ∧
      ∀ t < shape.rows, t ≠ reference →
        ∃ (row : List Float) (c : Float), m.row? t = some row ∧ single.get? t 0 = some c ∧
          ((∃ e ∈ row, e.isNaN = true) → c.isNaN = true) ∧
          ((∀ e ∈ row, e.isNaN = false) → c ∈ row ∧ ∀ e ∈ row, e ≤ c) := by
  obtain ⟨hlen, hrows⟩ := Observations.shape_eq_ok_iff_rectangular.1 hshape
  obtain ⟨n, dims⟩ := shape
  simp only at hlen hrows hr ⊢
  subst hlen
  obtain ⟨hc, _, hmatrix⟩ := variableMatrix_of_shape (hrows.shape_eq "series") hr
  obtain ⟨hc', _, hsingle⟩ :=
    normMatrix_of_parallelRows .maximum (hrows.parallelRows_singleton hr)
  refine ⟨_, _, hmatrix, hrows.maximum_projections hr, rfl, rfl, rfl, hsingle, ?_⟩
  intro t ht hne
  have hx := List.getElem?_eq_getElem hr
  have hy := List.getElem?_eq_getElem ht
  refine ⟨_, _, hrows.row?_variables hne hx hy, NormMatrix.get?_ofFn ht Nat.one_pos, ?_, ?_⟩
  · rintro ⟨e, he, hnan⟩
    obtain ⟨d, hd, rfl⟩ := List.mem_map.1 he
    rw [cell_of_ne hne, seriesDistance_eq .maximum rfl hx hy]
    rw [Scalar.isNaN_abs] at hnan
    exact (NormMode.maxNorm.isNaN_fold_iff _).2 ⟨d, hd, hnan⟩
  · intro hnan
    have hds : ∀ d ∈ differences rows[reference] rows[t], d.isNaN = false := by
      intro d hd
      rw [← Scalar.isNaN_abs]
      exact hnan _ (List.mem_map_of_mem hd)
    rw [cell_of_ne hne, seriesDistance_eq .maximum rfl hx hy]
    refine ⟨Norm.fold_maximum_mem ?_, ?_⟩
    · refine List.ne_nil_of_length_pos ?_
      rw [hrows.length_differences hx hy]
      exact hrows.dims_pos
    · intro e he
      obtain ⟨d, hd, rfl⟩ := List.mem_map.1 he
      exact Norm.abs_le_fold_maximum hds hd

/-- Two variables, measured from the first of three rows: a negative zero, and a NaN. -/
theorem variableMatrix_eq_maximum_mixed :
    Observations.shape "series" [[1, 0], [4, -0], [0 / 0, 2]] = .ok ⟨3, 2⟩ ∧ 0 < 3 ∧
    ∃ m single, variableMatrix [[1, 0], [4, -0], [0 / 0, 2]] 0 = .ok m ∧
      normMatrix .maximum [[[1], [4], [0 / 0]], [[0], [-0], [2]]] 0 = .ok m ∧
      normMatrix .maximum [[[1, 0], [4, -0], [0 / 0, 2]]] 0 = .ok single ∧
      m.row? 1 = some [3, 0] ∧ single.get? 1 0 = some 3 ∧ m.row? 2 = some [0 / 0, 2] ∧
      ∃ c, single.get? 2 0 = some c ∧ c.isNaN = true := by
  have hshape : Observations.shape "series" [[1, 0], [4, -0], [0 / 0, 2]] = .ok ⟨3, 2⟩ := by decide
  obtain ⟨m, single, hm, hprojections, -, -, -, hsingle, hrows⟩ :=
    variableMatrix_eq_maximum hshape (by decide : 0 < 3)
  have hvalues : (variableMatrix [[1, 0], [4, -0], [0 / 0, 2]] 0).map
      (fun m => (m.row? 1, m.row? 2)) = .ok (some [3, 0], some [0 / 0, 2]) := by
    decide +kernel
  rw [hm] at hvalues
  obtain ⟨hfirst, hsecond⟩ := Prod.mk.inj (Except.ok.inj hvalues)
  obtain ⟨row₁, c₁, hrow₁, hc₁, -, hlargest⟩ := hrows 1 (by decide) (by decide)
  obtain ⟨row₂, c₂, hrow₂, hc₂, hnan, -⟩ := hrows 2 (by decide) (by decide)
  obtain rfl := Option.some.inj (hfirst.symm.trans hrow₁)
  obtain rfl := Option.some.inj (hsecond.symm.trans hrow₂)
  obtain ⟨hmem, hle⟩ := hlargest (by decide)
  -- the zero is not the largest entry
  have hthree : c₁ = 3 := by
    rcases List.mem_pair.1 hmem with rfl | rfl
    · rfl
    · exact absurd (hle 3 List.mem_cons_self) (by decide)
  subst hthree
  exact ⟨hshape, by decide, m, single, hm, hprojections, hsingle, hfirst, hc₁, hsecond, c₂, hc₂,
    hnan ⟨0 / 0, List.mem_cons_self, by decide⟩⟩

end Proximity
