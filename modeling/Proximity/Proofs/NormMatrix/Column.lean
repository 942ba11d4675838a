import Proximity.Proofs.NormMatrix.Build
import Proximity.Proofs.Search.Distances

/-!
# The column of a norm matrix

The column of a single series holds the distances from the reference row to every row, and infinity
at the reference row itself.  A minimum distance is found without the table: accumulators are
compared instead of distances, pairs are abandoned, and only the best accumulator is finished.  It
is the least entry of the column all the same.

* `normMatrix_singleton` : the table of one series that can be searched.
* `isNearest_column` : the least entry of its column.
* `Engine.minDistances_eq_column_least` : **minimum distances are the least entries of the
  columns**.
-/

namespace Proximity

/-! ### The table of one series -/

/-- The entry of row `i` in the column of one series, as seen from row `t`, which is `x`. -/
def columnEntry (norm : Norm) (rows : Observations) (x : List Float) (t i : ℕ) : Float :=
  if i = t then Scalar.infinity else norm.distance x (rows.getD i [])

theorem columnEntry_self (norm : Norm) (rows : Observations) (x : List Float) (t : ℕ) :
    columnEntry norm rows x t t = Scalar.infinity := if_pos rfl

theorem columnEntry_of_ne (norm : Norm) {rows : Observations} (x : List Float) {t u : ℕ}
    {y : List Float} (hut : u ≠ t) (hy : rows[u]? = some y) :
    columnEntry norm rows x t u = norm.distance x y := by
  rw [columnEntry, if_neg hut, List.getD_eq_getElem?_getD, hy, Option.getD_some]

theorem normMatrix_singleton (norm : Norm) {rows : Observations} {dims t : ℕ} {x : List Float}
    (hrows : rows.Searchable dims) (hx : rows[t]? = some x) :
    ∃ m, normMatrix norm [rows] t = .ok m ∧
      m.column? 0 = some ((List.range rows.length).map (columnEntry norm rows x t)) := by
  obtain ⟨ht, -⟩ := List.getElem?_eq_some_iff.1 hx
  obtain ⟨hc, hr, hmatrix⟩ :=
    normMatrix_of_parallelRows norm (hrows.rectangular.parallelRows_singleton ht)
  refine ⟨_, hmatrix, ?_⟩
  have hentry : ∀ i,
      NormMatrix.cell t (seriesDistance norm ([rows].map List.toArray).toArray t) i 0 =
        columnEntry norm rows x t i := by
    intro i
    have hget : rows.getD t [] = x := by rw [List.getD_eq_getElem?_getD, hx, Option.getD_some]
    rw [← hget]
    simp [columnEntry, NormMatrix.cell, seriesDistance]
  refine (NormMatrix.column?_ofFn hc).trans ?_
  simp only [hentry]

theorem mem_column_iff (norm : Norm) {rows : Observations} (x : List Float) (t : ℕ) {v : Float}
    (hv : v < Scalar.infinity) :
    v ∈ (List.range rows.length).map (columnEntry norm rows x t) ↔
      v ∈ otherValues rows t fun _ y => norm.distance x y := by
  rw [List.mem_map]
  constructor
  · rintro ⟨u, hu, rfl⟩
    have hy := List.getElem?_eq_getElem (List.mem_range.1 hu)
    have hut : u ≠ t := by
      rintro rfl
      rw [columnEntry_self] at hv
      exact Scalar.lt_irrefl _ hv
    exact ⟨u, _, hut, hy, (columnEntry_of_ne norm x hut hy).symm⟩
  · rintro ⟨u, y, hut, hy, rfl⟩
    obtain ⟨hu, -⟩ := List.getElem?_eq_some_iff.1 hy
    exact ⟨u, List.mem_range.2 hu, columnEntry_of_ne norm x hut hy⟩

/-- The least entry of the column is the least distance to another row. -/
theorem isNearest_column (norm : Norm) (rows : Observations) (x : List Float) (t : ℕ) :
    IsNearest (otherValues rows t fun _ y => norm.distance x y)
      (((List.range rows.length).map (columnEntry norm rows x t)).foldl Scalar.smaller
        Scalar.infinity) :=
  (isNearest_foldl_smaller _).congr fun _ hv => mem_column_iff norm x t hv

/-! ### Two ways to a minimum distance -/

/-- **Minimum distances are the least entries of the columns**, bit for bit: for every row, the
result of an engine is the smallest entry of the column of its table, with the infinity of the row
itself among the entries and NaNs passed over.  The rows have to be within the limits of the search
that the engine chooses for them. -/
theorem Engine.minDistances_eq_column_least (engine : Engine) {rows : Observations} {shape : Shape}
    (hshape : rows.searchShape = .ok shape)
    (hfit : (engine.config.algorithmFor rows.length).Admits rows) :
    ∃ distances : List Float, (engine.minDistances rows).result = .ok distances ∧
      distances.length = rows.length ∧
      ∀ t < rows.length, ∃ m column, normMatrix engine.norm [rows] t = .ok m ∧
        m.column? 0 = some column ∧ column.length = rows.length ∧
        column[t]? = some Scalar.infinity ∧
        distances[t]? = some (column.foldl Scalar.smaller Scalar.infinity) := by
  have hrows := (Observations.searchShape_eq_ok_iff.1 hshape).2
  have hprunable := engine.config.norm.prunable_norm
  have hfinish := engine.config.norm.orderedFinish_norm
  refine ⟨finishAll engine.norm shape.dims (Naive.bests engine.norm rows),
    engine.config.norm.result_minDistancesBy_eq_ok hrows hfit, ?_, ?_⟩
  · rw [length_finishAll, Naive.length_bests]
  · intro t ht
    have hx := List.getElem?_eq_getElem ht
    have hlen := hrows.length_getElem? hx
    obtain ⟨m, hmatrix, hcolumn⟩ := normMatrix_singleton engine.norm hrows hx
    refine ⟨m, _, hmatrix, hcolumn, ?_, ?_, ?_⟩
    · rw [List.length_map, List.length_range]
    · rw [List.getElem?_map, List.getElem?_range ht, Option.map_some, columnEntry_self]
    · -- both are the least distance to another row
      have hpos : 0 < rows[t].length := hlen ▸ hrows.dims_pos
      have hsearch := Naive.isNearest_distance hprunable hfinish rows hpos t
      have hleast := isNearest_column engine.norm rows rows[t] t
      rw [getElem?_finishAll, Naive.getElem?_bests hx, Option.map_some, ← hlen]
      exact congrArg some (hsearch.eq_of_otherValues
        (fun _ y => Norm.distance_ne_negative_zero hprunable hfinish hpos y) hleast)

/-- The normalised Euclidean distance of the second of three rows, one of them with a NaN. -/
theorem Engine.minDistances_eq_column_least_normalised :
    Observations.searchShape [[0, 4], [3, 1], [0 / 0, 2]] = .ok ⟨3, 2⟩ ∧
    (Config.algorithmFor ⟨.euclideanNormalised, 3⟩ 3).Admits [[0, 4], [3, 1], [0 / 0, 2]] ∧
    ∃ (distances : List Float) (m : NormMatrix) (column : List Float),
      (Engine.minDistances ⟨.euclideanNormalised, 3⟩ [[0, 4], [3, 1], [0 / 0, 2]]).result =
        .ok distances ∧
      normMatrix .euclideanNormalised [[[0, 4], [3, 1], [0 / 0, 2]]] 1 = .ok m ∧
      m.column? 0 = some column ∧
      distances[1]? = some (column.foldl Scalar.smaller Scalar.infinity) := by
  have hshape : Observations.searchShape [[0, 4], [3, 1], [0 / 0, 2]] = .ok ⟨3, 2⟩ := by decide
  have hfit : (Config.algorithmFor ⟨.euclideanNormalised, 3⟩ 3).Admits
      [[0, 4], [3, 1], [0 / 0, 2]] := by decide
  obtain ⟨distances, hresult, -, hrow⟩ :=
    Engine.minDistances_eq_column_least ⟨.euclideanNormalised, 3⟩ hshape hfit
  obtain ⟨m, column, hmatrix, hcolumn, -, -, hleast⟩ := hrow 1 (by decide)
  exact ⟨hshape, hfit, distances, m, column, hresult, hmatrix, hcolumn, hleast⟩

end Proximity
