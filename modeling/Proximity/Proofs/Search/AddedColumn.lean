import Mathlib.Data.List.InsertIdx
import Proximity.Proofs.Norm.Monotone
import Proximity.Proofs.Search.Distances

/-!
# Adding a column

One more component in every row, at the same place, adds one difference to the fold of every pair.
In a sum of squares it changes every rounding after it, both searches then stop at other
components, and the nearest row may be another one.  Rows never come closer all the same: the fold
of a pair does not decrease, or it is no longer below infinity and the pair drops out.

* `Observations.insertColumn` : a table with one more column.
* `differences_insertIdx` : the fold of a pair has one more component.
* `NormMode.nearest_insertColumn_le` : no best accumulator decreases.
* `minDistances_insertColumn_le` : **no minimum distance decreases** when a column is added, for the
  norms that do not divide by the number of dimensions.
-/

namespace Proximity

variable {rows : Observations} {column x y : List Float} {dims i t : ℕ}

/-! ### Tables with one more column -/

namespace Observations

/-- The table with one more column at place `i`, given by its components in row order. -/
def insertColumn (rows : Observations) (i : ℕ) (column : List Float) : Observations :=
  List.zipWith (fun row c => row.insertIdx i c) rows column

@[simp] theorem length_insertColumn (h : column.length = rows.length) (i : ℕ) :
    (rows.insertColumn i column).length = rows.length := by
  simp [insertColumn, h]

theorem getElem?_insertColumn_eq_some_iff :
    (rows.insertColumn i column)[t]? = some x ↔
      ∃ row c, rows[t]? = some row ∧ column[t]? = some c ∧ row.insertIdx i c = x :=
  List.getElem?_zipWith_eq_some

theorem getElem?_insertColumn {c : Float} (hx : rows[t]? = some x) (hc : column[t]? = some c)
    (i : ℕ) : (rows.insertColumn i column)[t]? = some (x.insertIdx i c) :=
  getElem?_insertColumn_eq_some_iff.2 ⟨x, c, hx, hc, rfl⟩

theorem Searchable.insertColumn (h : rows.Searchable dims) (hi : i ≤ dims)
    (hcolumn : column.length = rows.length) :
    (rows.insertColumn i column).Searchable (dims + 1) where
  two_le := by
    rw [length_insertColumn hcolumn]
    exact h.two_le
  dims_pos := Nat.succ_pos dims
  length_eq := by
    intro row hrow
    obtain ⟨t, ht⟩ := List.mem_iff_getElem?.1 hrow
    obtain ⟨x, c, hx, -, rfl⟩ := getElem?_insertColumn_eq_some_iff.1 ht
    have hlen := h.length_getElem? hx
    rw [List.length_insertIdx_of_le_length (hlen ▸ hi), hlen]

end Observations

/-- The fold of a pair has one more component, at the same place. -/
theorem differences_insertIdx (h : x.length = y.length) (i : ℕ) (c e : Float) :
    differences (x.insertIdx i c) (y.insertIdx i e) = (differences x y).insertIdx i (c - e) := by
  induction i generalizing x y with
  | zero => rfl
  | succ i ih =>
    cases x with
    | nil =>
      rw [List.eq_nil_of_length_eq_zero h.symm]
      rfl
    | cons a x =>
      cases y with
      | nil => cases h
      | cons b y =>
        have hcons := ih (Nat.succ.inj h)
        simp only [differences] at hcons ⊢
        simp only [List.insertIdx_succ_cons, List.zipWith_cons_cons, hcons]

/-! ### No row comes closer -/

namespace NormMode

/-- No best accumulator decreases. -/
theorem nearest_insertColumn_le (mode : NormMode) (hrows : rows.Searchable dims) {c : Float}
    (hx : rows[t]? = some x) (i : ℕ) (column : List Float) :
    Naive.nearest mode.norm rows x t ≤
      Naive.nearest mode.norm (rows.insertColumn i column) (x.insertIdx i c) t := by
  have hbefore := Naive.isNearest_nearest mode.prunable_norm rows x t
  have hafter := Naive.isNearest_nearest mode.prunable_norm (rows.insertColumn i column)
    (x.insertIdx i c) t
  refine hbefore.le_of_forall_exists_le hafter ?_
  rintro v ⟨u, y', hut, hy', rfl⟩ hlt
  obtain ⟨y, e, hy, -, rfl⟩ := Observations.getElem?_insertColumn_eq_some_iff.1 hy'
  refine ⟨_, ⟨u, y, hut, hy, rfl⟩, mode.accumulated_le_accumulated ?_ hlt⟩
  have hlen : x.length = y.length := by
    rw [hrows.length_getElem? hx, hrows.length_getElem? hy]
  rw [differences_insertIdx hlen]
  exact List.sublist_insertIdx (differences x y) i (c - e)

/-- The norms that do not divide by the number of dimensions do not look at it. -/
theorem finish_eq_finish {mode : NormMode} (hmode : mode ≠ .euclideanNormalised) (p : Float)
    (dims dims' : ℕ) : mode.norm.finish p dims = mode.norm.finish p dims' := by
  cases mode with
  | euclidean => rfl
  | euclideanNormalised => exact absurd rfl hmode
  | maxNorm => rfl

theorem finish_nearest_insertColumn_le {mode : NormMode} (hmode : mode ≠ .euclideanNormalised)
    (hrows : rows.Searchable dims) {c : Float} (hx : rows[t]? = some x) (i : ℕ)
    (column : List Float) :
    mode.norm.finish (Naive.nearest mode.norm rows x t) dims ≤
      mode.norm.finish (Naive.nearest mode.norm (rows.insertColumn i column) (x.insertIdx i c) t)
        (dims + 1) := by
  have hnonneg : 0 ≤ Naive.nearest mode.norm rows x t := by
    refine ((Naive.isNearest_nearest mode.prunable_norm rows x t).nonneg ?_).1
    rintro v ⟨u, y, -, -, rfl⟩
    exact Norm.admissible_accumulated mode.prunable_norm x y
  rw [finish_eq_finish hmode _ (dims + 1) dims]
  exact mode.orderedFinish_norm.finish_le dims _ _ hrows.dims_pos hnonneg
    (mode.nearest_insertColumn_le hrows hx i column)

end NormMode

/-- **No minimum distance decreases** when a column is added, at any place and with any components,
NaNs and infinities among them, by either search and for every number of rows up to which the fast
one is used, as long as each table is within the limits of the search.  The Euclidean norm per
dimension is the exception: it divides by a larger number. -/
theorem minDistances_insertColumn_le (mode : NormMode) (hmode : mode ≠ .euclideanNormalised)
    {shape : Shape} (hshape : rows.searchShape = .ok shape) (hi : i ≤ shape.dims)
    (hcolumn : column.length = rows.length) :
    ∃ before after : List Float,
      (∀ algorithm : Algorithm,
        (algorithm.Admits rows →
          (minDistancesBy mode.norm algorithm rows).result = .ok before) ∧
        (algorithm.Admits (rows.insertColumn i column) →
          (minDistancesBy mode.norm algorithm (rows.insertColumn i column)).result =
            .ok after)) ∧
      (∀ maxRows,
        ((Algorithm.select rows.length maxRows).Admits rows →
          (minDistances mode.norm maxRows rows).result = .ok before) ∧
        ((Algorithm.select (rows.insertColumn i column).length maxRows).Admits
            (rows.insertColumn i column) →
          (minDistances mode.norm maxRows (rows.insertColumn i column)).result = .ok after)) ∧
      before.length = rows.length ∧ after.length = rows.length ∧
      ∀ t < rows.length, ∃ d d', before[t]? = some d ∧ after[t]? = some d' ∧ d ≤ d' := by
  obtain ⟨-, hrows⟩ := Observations.searchShape_eq_ok_iff.1 hshape
  have hrows' := hrows.insertColumn hi hcolumn
  refine ⟨finishAll mode.norm shape.dims (Naive.bests mode.norm rows),
    finishAll mode.norm (shape.dims + 1) (Naive.bests mode.norm (rows.insertColumn i column)),
    fun _ => ⟨mode.result_minDistancesBy_eq_ok hrows, mode.result_minDistancesBy_eq_ok hrows'⟩,
    fun _ => ⟨mode.result_minDistancesBy_eq_ok hrows, mode.result_minDistancesBy_eq_ok hrows'⟩,
    by simp, ?_, fun t ht => ?_⟩
  · rw [length_finishAll, Naive.length_bests, Observations.length_insertColumn hcolumn]
  · have hx := List.getElem?_eq_getElem ht
    have hc := List.getElem?_eq_getElem (hcolumn ▸ ht)
    have hx' := Observations.getElem?_insertColumn hx hc i
    rw [getElem?_finishAll, getElem?_finishAll, Naive.getElem?_bests hx, Naive.getElem?_bests hx']
    exact ⟨_, _, rfl, rfl, NormMode.finish_nearest_insertColumn_le hmode hrows hx i column⟩

/-- Three rows with one more column in the middle, which holds an infinity and a NaN. -/
theorem minDistances_insertColumn_le_mixed :
    NormMode.euclidean ≠ .euclideanNormalised ∧
    Observations.searchShape [[0, 4], [3, 1], [6, 8]] = .ok ⟨3, 2⟩ ∧
    1 ≤ 2 ∧ ([1 / 0, 0 / 0, 2] : List Float).length = 3 ∧
    Algorithm.fast.Admits [[0, 4], [3, 1], [6, 8]] ∧
    Algorithm.fast.Admits [[0, 1 / 0, 4], [3, 0 / 0, 1], [6, 2, 8]] ∧
    ∃ before after : List Float,
      (Fast.minDistances .euclidean [[0, 4], [3, 1], [6, 8]]).result = .ok before ∧
      (Fast.minDistances .euclidean [[0, 1 / 0, 4], [3, 0 / 0, 1], [6, 2, 8]]).result =
        .ok after ∧
      ∀ t < 3, ∃ d d', before[t]? = some d ∧ after[t]? = some d' ∧ d ≤ d' := by
  have hmode : NormMode.euclidean ≠ .euclideanNormalised := by decide
  have hshape : Observations.searchShape [[0, 4], [3, 1], [6, 8]] = .ok ⟨3, 2⟩ := by decide
  have hcolumn : ([1 / 0, 0 / 0, 2] : List Float).length = 3 := rfl
  have hi : 1 ≤ 2 := by decide
  have hfit : Algorithm.fast.Admits [[0, 4], [3, 1], [6, 8]] := by decide
  have hfit' : Algorithm.fast.Admits [[0, 1 / 0, 4], [3, 0 / 0, 1], [6, 2, 8]] := by decide
  obtain ⟨before, after, hresult, -, -, -, hrow⟩ :=
    minDistances_insertColumn_le .euclidean hmode hshape hi hcolumn
  obtain ⟨hbefore, hafter⟩ := hresult .fast
  exact ⟨hmode, hshape, hi, hcolumn, hfit, hfit', before, after, hbefore hfit, hafter hfit', hrow⟩

/-- A column of zeros brings rows closer per dimension. -/
example : Norm.euclideanNormalised.distance [0, 0] [1, 0] <
    Norm.euclideanNormalised.distance [0] [1] := by
  decide +kernel

end Proximity
