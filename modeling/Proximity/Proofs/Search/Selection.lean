import Mathlib.Data.Finset.Basic
import Mathlib.Data.List.Nodup
import Mathlib.Data.List.Range
import Proximity.Proofs.Norm.Finish
import Proximity.Proofs.Norm.NonFinite
import Proximity.Proofs.Search.Agreement

/-!
# Searching a selection of the rows

Some of the rows, in another order, make another table.  The searches of the two tables share no
intermediate state: the pairs are visited in another order, against other bounds, and are folded
from other sides.  But every row has the same nearest accumulator in both tables, as long as the
rows that are left out are at no finite distance from it.

* `select` : some of the elements of a list, by their indices.
* `Selects` : rows may be left out if they are at no finite distance from the others.
* `Naive.minDistances_select` : **the distances of the selected rows are the selected distances.**
* `minDistances_perm` : the order of the rows does not matter.
* `minDistances_isolated` : rows with a component that is not finite are infinitely far from every
  row, and may be left out.
-/

namespace Proximity

/-! ### Selecting by indices -/

/-- The elements with the given indices, in the order of the indices. -/
def select {α : Type} (indices : List ℕ) (l : List α) : List α := indices.filterMap fun i => l[i]?

section Select

variable {α β : Type} {indices : List ℕ} {l : List α}

theorem select_cons {i : ℕ} {a : α} (hi : l[i]? = some a) (indices : List ℕ) :
    select (i :: indices) l = a :: select indices l := by
  rw [select, List.filterMap_cons_some hi]
  rfl

theorem map_select (f : α → β) (indices : List ℕ) (l : List α) :
    (select indices l).map f = select indices (l.map f) := by
  simp only [select, List.map_filterMap, List.getElem?_map]

theorem mem_of_mem_select {a : α} (h : a ∈ select indices l) : a ∈ l := by
  obtain ⟨i, -, hi⟩ := List.mem_filterMap.1 h
  exact List.mem_of_getElem? hi

theorem length_select (h : ∀ i ∈ indices, i < l.length) :
    (select indices l).length = indices.length := by
  induction indices with
  | nil => rfl
  | cons i indices ih =>
    rw [select_cons (List.getElem?_eq_getElem (h i List.mem_cons_self)), List.length_cons,
      ih fun j hj => h j (List.mem_cons_of_mem i hj), List.length_cons]

/-- If every index is in range, the selection has an element at the place of every index. -/
theorem getElem?_select (h : ∀ i ∈ indices, i < l.length) (k : ℕ) :
    (select indices l)[k]? = indices[k]?.bind fun i => l[i]? := by
  induction indices generalizing k with
  | nil => rfl
  | cons i indices ih =>
    have hi := List.getElem?_eq_getElem (h i List.mem_cons_self)
    rw [select_cons hi]
    cases k with
    | zero => exact hi.symm
    | succ k => exact ih (fun j hj => h j (List.mem_cons_of_mem i hj)) k

theorem getElem?_select_eq_some_iff (h : ∀ i ∈ indices, i < l.length) {k : ℕ} {a : α} :
    (select indices l)[k]? = some a ↔ ∃ i, indices[k]? = some i ∧ l[i]? = some a := by
  rw [getElem?_select h, Option.bind_eq_some_iff]

end Select

/-! ### Leaving rows out -/

/-- The rows with the given indices make a table in which every row is as near to the others as
before. -/
structure Selects (norm : Norm) (rows : Observations) (indices : List ℕ) : Prop where
  /-- There are two rows. -/
  two_le : 2 ≤ indices.length
  /-- No row is taken twice. -/
  nodup : indices.Nodup
  /-- The indices are those of rows. -/
  lt_length : ∀ i ∈ indices, i < rows.length
  /-- The rows that are left out are at no finite distance. -/
  far : ∀ i ∈ indices, ∀ u x y, u ∉ indices → rows[i]? = some x → rows[u]? = some y →
    ¬ norm.accumulated x y < Scalar.infinity

namespace Selects

variable {norm : Norm} {rows : Observations} {indices : List ℕ}

theorem searchable {dims : ℕ} (h : Selects norm rows indices) (hrows : rows.Searchable dims) :
    Observations.Searchable (select indices rows) dims where
  two_le := by
    rw [length_select h.lt_length]
    exact h.two_le
  dims_pos := hrows.dims_pos
  length_eq row hrow := hrows.length_eq row (mem_of_mem_select hrow)

theorem searchShape {shape : Shape} (h : Selects norm rows indices)
    (hshape : rows.searchShape = .ok shape) :
    Observations.searchShape (select indices rows) = .ok ⟨indices.length, shape.dims⟩ := by
  rw [Observations.searchShape_eq_ok_iff] at hshape ⊢
  exact ⟨(length_select h.lt_length).symm, h.searchable hshape.2⟩

/-- A selected row has the same accumulators below infinity with the selected rows as with all
rows. -/
theorem mem_otherValues_iff (h : Selects norm rows indices) {k i : ℕ} {x : List Float}
    (hk : indices[k]? = some i) (hx : rows[i]? = some x) {v : Float} (hv : v < Scalar.infinity) :
    (v ∈ otherValues rows i fun _ y => norm.accumulated x y) ↔
      v ∈ otherValues (select indices rows) k fun _ y => norm.accumulated x y := by
  constructor
  · rintro ⟨u, y, hui, hy, rfl⟩
    have hu : u ∈ indices := by
      by_contra hu
      exact h.far i (List.mem_of_getElem? hk) u x y hu hx hy hv
    obtain ⟨j, hj⟩ := List.mem_iff_getElem?.1 hu
    refine ⟨j, y, ?_, (getElem?_select_eq_some_iff h.lt_length).2 ⟨u, hj, hy⟩, rfl⟩
    rintro rfl
    exact hui (Option.some.inj (hj.symm.trans hk))
  · rintro ⟨j, y, hjk, hy, rfl⟩
    obtain ⟨u, hj, hy⟩ := (getElem?_select_eq_some_iff h.lt_length).1 hy
    refine ⟨u, y, ?_, hy, rfl⟩
    -- no row is taken at two places
    rintro rfl
    obtain ⟨hlt, -⟩ := List.getElem?_eq_some_iff.1 hj
    exact hjk ((List.getElem?_inj hlt h.nodup).1 (hj.trans hk.symm))

end Selects

namespace Naive

variable {norm : Norm} {rows : Observations} {indices : List ℕ}

theorem nearest_select (h : norm.Prunable) (hsel : Selects norm rows indices) {k i : ℕ}
    {x : List Float} (hk : indices[k]? = some i) (hx : rows[i]? = some x) :
    nearest norm (select indices rows) x k = nearest norm rows x i := by
  have hselected := isNearest_nearest h (select indices rows) x k
  have hall := (isNearest_nearest h rows x i).congr fun v hv => hsel.mem_otherValues_iff hk hx hv
  exact hselected.eq_of_otherValues
    (fun _ y => h.fold_ne_negative_zero (differences x y)) hall

theorem bests_select (h : norm.Prunable) (hsel : Selects norm rows indices) :
    bests norm (select indices rows) = select indices (bests norm rows) := by
  have hlt : ∀ i ∈ indices, i < (bests norm rows).length := by
    rw [length_bests]
    exact hsel.lt_length
  refine List.ext_getElem? fun k => ?_
  rw [getElem?_select hlt]
  cases hk : indices[k]? with
  | none =>
    rw [Option.bind_none, List.getElem?_eq_none_iff, length_bests, length_select hsel.lt_length]
    exact List.getElem?_eq_none_iff.1 hk
  | some i =>
    have hx := List.getElem?_eq_getElem (hsel.lt_length i (List.mem_of_getElem? hk))
    rw [getElem?_bests ((getElem?_select_eq_some_iff hsel.lt_length).2 ⟨i, hk, hx⟩),
      nearest_select h hsel hk hx, Option.bind_some, getElem?_bests hx]

/-- **The distances of the selected rows are the selected distances.** -/
theorem minDistances_select (h : norm.Prunable) (hsel : Selects norm rows indices) {shape : Shape}
    (hshape : rows.searchShape = .ok shape) :
    minDistances norm (select indices rows) =
      .ok (select indices (finishAll norm shape.dims (bests norm rows))) := by
  rw [minDistances, hsel.searchShape hshape, bests_select h hsel]
  simp only [Except.map, finishAll, map_select]

end Naive

/-! ### The order of the rows -/

theorem selects_of_perm (norm : Norm) {rows : Observations} {order : List ℕ}
    (h : order.Perm (List.range rows.length)) (htwo : 2 ≤ rows.length) :
    Selects norm rows order where
  two_le := by rwa [h.length_eq, List.length_range]
  nodup := h.nodup_iff.2 List.nodup_range
  lt_length i hi := List.mem_range.1 (h.mem_iff.1 hi)
  far i _ u x y hu _ hy := by
    -- no row is left out
    obtain ⟨hlt, -⟩ := List.getElem?_eq_some_iff.1 hy
    exact absurd (h.mem_iff.2 (List.mem_range.2 hlt)) hu

/-- The table in another order has the same size. -/
theorem searchShape_select_perm {rows : Observations} {shape : Shape}
    (hshape : rows.searchShape = .ok shape) {order : List ℕ}
    (horder : order.Perm (List.range rows.length)) :
    Observations.searchShape (select order rows) = rows.searchShape := by
  obtain ⟨hlen, hrows⟩ := Observations.searchShape_eq_ok_iff.1 hshape
  -- which norm it is does not matter to the size
  have hsel := selects_of_perm .euclidean horder hrows.two_le
  rw [hsel.searchShape hshape, hshape, horder.length_eq, List.length_range, ← hlen]

/-- **The order of the rows does not matter** to the standard norms: the distances of the rows in
another order are the distances in that order, bit for bit, by either search and for every number of
rows up to which the fast one is used.  There are distances if the rows are within the limits of the
search. -/
theorem minDistances_perm (mode : NormMode) {rows : Observations} {shape : Shape}
    (hshape : rows.searchShape = .ok shape) {order : List ℕ}
    (horder : order.Perm (List.range rows.length)) :
    ∃ distances : List Float, distances.length = rows.length ∧
      (∀ algorithm,
        (minDistancesBy mode.norm algorithm (select order rows)).result =
          (minDistancesBy mode.norm algorithm rows).result.map (select order) ∧
        (algorithm.Admits rows →
          (minDistancesBy mode.norm algorithm rows).result = .ok distances)) ∧
      ∀ maxRows,
        (minDistances mode.norm maxRows (select order rows)).result =
          (minDistances mode.norm maxRows rows).result.map (select order) ∧
        ((Algorithm.select rows.length maxRows).Admits rows →
          (minDistances mode.norm maxRows rows).result = .ok distances) := by
  have hrows := (Observations.searchShape_eq_ok_iff.1 hshape).2
  have hsel := selects_of_perm mode.norm horder hrows.two_le
  have hsize := searchShape_select_perm hshape horder
  have hall : ∀ algorithm : Algorithm, algorithm.Admits rows →
      (minDistancesBy mode.norm algorithm rows).result =
        .ok (finishAll mode.norm shape.dims (Naive.bests mode.norm rows)) :=
    fun _ hfit => mode.result_minDistancesBy_eq_ok hrows hfit
  have hmap : ∀ algorithm, (minDistancesBy mode.norm algorithm (select order rows)).result =
      (minDistancesBy mode.norm algorithm rows).result.map (select order) := by
    intro algorithm
    have hby : Observations.shapeBy (select order rows) algorithm = rows.shapeBy algorithm :=
      Observations.shapeBy_congr hsize
    cases hcheck : rows.shapeBy algorithm with
    | error e =>
      -- beyond the limits, both searches report the same size
      rw [hcheck] at hby
      rw [result_minDistancesBy_eq_map, result_minDistancesBy_eq_map, hby, hcheck]
      rfl
    | ok found =>
      have hfit := (Observations.shapeBy_eq_ok_iff.1 hcheck).2
      have hfit' := (Observations.shapeBy_eq_ok_iff.1 (hby.trans hcheck)).2
      rw [hall algorithm hfit, mode.result_minDistancesBy hfit',
        Naive.minDistances_select mode.prunable_norm hsel hshape]
      rfl
  refine ⟨finishAll mode.norm shape.dims (Naive.bests mode.norm rows), ?_,
    fun algorithm => ⟨hmap algorithm, hall algorithm⟩, fun maxRows => ⟨?_, hall _⟩⟩
  · rw [length_finishAll, Naive.length_bests]
  · have hlen : (select order rows).length = rows.length := by
      rw [length_select hsel.lt_length, horder.length_eq, List.length_range]
    have hmapped := hmap (.select (select order rows).length maxRows)
    exact hmapped.trans (by rw [hlen]; rfl)

/-- Three rows in another order, two of them equal and the third with a NaN. -/
theorem minDistances_perm_rotated :
    Observations.searchShape [[0, 4], [0 / 0, 2], [0, 4]] = .ok ⟨3, 2⟩ ∧
    [1, 2, 0].Perm (List.range 3) ∧
    Algorithm.fast.Admits [[0, 4], [0 / 0, 2], [0, 4]] ∧
    ∃ distances : List Float,
      (Fast.minDistances .euclidean [[0, 4], [0 / 0, 2], [0, 4]]).result = .ok distances ∧
      (Fast.minDistances .euclidean [[0 / 0, 2], [0, 4], [0, 4]]).result =
        .ok (select [1, 2, 0] distances) := by
  have hshape : Observations.searchShape [[0, 4], [0 / 0, 2], [0, 4]] = .ok ⟨3, 2⟩ := by decide
  have horder : [1, 2, 0].Perm (List.range 3) := by decide
  have hfit : Algorithm.fast.Admits [[0, 4], [0 / 0, 2], [0, 4]] := by decide
  obtain ⟨distances, -, hby, -⟩ := minDistances_perm .euclidean hshape horder
  obtain ⟨hmap, hok⟩ := hby .fast
  rw [hok hfit] at hmap
  exact ⟨hshape, horder, hfit, distances, hok hfit, hmap⟩

/-! ### Components that are not finite -/

/-- The indices below `n` that are not left out, in order. -/
def remaining (n : ℕ) (deleted : Finset ℕ) : List ℕ :=
  (List.range n).filter fun i => i ∉ deleted

theorem mem_remaining {n i : ℕ} {deleted : Finset ℕ} :
    i ∈ remaining n deleted ↔ i < n ∧ i ∉ deleted := by
  rw [remaining, List.mem_filter, List.mem_range, decide_eq_true_eq]

/-- Two rows of a table are at no finite distance if one has a component that is not finite. -/
theorem Observations.Searchable.not_accumulated_lt_infinity {rows : Observations} {dims : ℕ}
    (hrows : rows.Searchable dims) (mode : NormMode) {t u : ℕ} {x y : List Float}
    (hx : rows[t]? = some x) (hy : rows[u]? = some y) (h : HasNonFinite x ∨ HasNonFinite y) :
    ¬ mode.norm.accumulated x y < Scalar.infinity :=
  mode.not_accumulated_lt_infinity
    ((hrows.length_getElem? hx).trans (hrows.length_getElem? hy).symm) h

theorem selects_remaining (mode : NormMode) {rows : Observations} {dims : ℕ}
    (hrows : rows.Searchable dims) {deleted : Finset ℕ}
    (hdeleted : ∀ t ∈ deleted, ∀ x, rows[t]? = some x → HasNonFinite x)
    (htwo : 2 ≤ (remaining rows.length deleted).length) :
    Selects mode.norm rows (remaining rows.length deleted) where
  two_le := htwo
  nodup := List.nodup_range.filter _
  lt_length i hi := (mem_remaining.1 hi).1
  far i _ u x y hu hx hy := by
    obtain ⟨hlt, -⟩ := List.getElem?_eq_some_iff.1 hy
    have hmem : u ∈ deleted := by
      by_contra hmem
      exact hu (mem_remaining.2 ⟨hlt, hmem⟩)
    exact hrows.not_accumulated_lt_infinity mode hx hy (.inr (hdeleted u hmem y hy))

/-- A row with a component that is not finite is near no row. -/
theorem Naive.nearest_eq_infinity (mode : NormMode) {rows : Observations} {dims : ℕ}
    (hrows : rows.Searchable dims) {t : ℕ} {x : List Float} (hx : rows[t]? = some x)
    (hfinite : HasNonFinite x) :
    Naive.nearest mode.norm rows x t = Scalar.infinity := by
  refine (Naive.isNearest_nearest mode.prunable_norm rows x t).eq_infinity ?_
  rintro v ⟨u, y, -, hy, rfl⟩
  exact hrows.not_accumulated_lt_infinity mode hx hy (.inl hfinite)

/-- **Rows with a component that is not finite are isolated** under the standard norms: their
distance is infinity, and if any of them are left out, with two rows remaining, the distances of the
remaining rows are the same, bit for bit, by either search, as long as each table is within the
limits of the search. -/
theorem minDistances_isolated (mode : NormMode) {rows : Observations} {shape : Shape}
    (hshape : rows.searchShape = .ok shape) :
    ∃ distances : List Float, distances.length = rows.length ∧
      (∀ algorithm : Algorithm, algorithm.Admits rows →
        (minDistancesBy mode.norm algorithm rows).result = .ok distances) ∧
      (∀ (t : ℕ) (x : List Float), rows[t]? = some x → HasNonFinite x →
        distances[t]? = some Scalar.infinity) ∧
      ∀ deleted : Finset ℕ,
        (∀ t ∈ deleted, ∀ x, rows[t]? = some x → HasNonFinite x) →
        2 ≤ (remaining rows.length deleted).length →
        ∀ algorithm : Algorithm, algorithm.Admits (select (remaining rows.length deleted) rows) →
          (minDistancesBy mode.norm algorithm
              (select (remaining rows.length deleted) rows)).result =
            .ok (select (remaining rows.length deleted) distances) := by
  have hrows := (Observations.searchShape_eq_ok_iff.1 hshape).2
  refine ⟨finishAll mode.norm shape.dims (Naive.bests mode.norm rows), ?_,
    fun algorithm hfit => mode.result_minDistancesBy_eq_ok hrows hfit,
    fun t x hx hfinite => ?_, fun deleted hdeleted htwo algorithm hfit => ?_⟩
  · rw [length_finishAll, Naive.length_bests]
  · rw [getElem?_finishAll, Naive.getElem?_bests hx,
      Naive.nearest_eq_infinity mode hrows hx hfinite, Option.map_some,
      mode.orderedFinish_norm.finish_infinity shape.dims hrows.dims_pos]
  · rw [mode.result_minDistancesBy hfit]
    exact Naive.minDistances_select mode.prunable_norm
      (selects_remaining mode hrows hdeleted htwo) hshape

/-- Four rows, one with a NaN and one with an infinity, and the two that remain. -/
theorem minDistances_isolated_mixed :
    Observations.searchShape [[0, 4], [0 / 0, 2], [3, 1], [1, 1 / 0]] = .ok ⟨4, 2⟩ ∧
    Algorithm.fast.Admits [[0, 4], [0 / 0, 2], [3, 1], [1, 1 / 0]] ∧
    HasNonFinite [0 / 0, 2] ∧
    ∃ distances : List Float,
      (Fast.minDistances .euclidean [[0, 4], [0 / 0, 2], [3, 1], [1, 1 / 0]]).result =
        .ok distances ∧
      distances[1]? = some Scalar.infinity ∧
      Algorithm.fast.Admits [[0, 4], [3, 1]] ∧
      (Fast.minDistances .euclidean [[0, 4], [3, 1]]).result = .ok (select [0, 2] distances) := by
  have hshape : Observations.searchShape [[0, 4], [0 / 0, 2], [3, 1], [1, 1 / 0]] = .ok ⟨4, 2⟩ := by
    decide
  have hfit : Algorithm.fast.Admits [[0, 4], [0 / 0, 2], [3, 1], [1, 1 / 0]] := by decide
  have hfit' : Algorithm.fast.Admits [[0, 4], [3, 1]] := by decide
  have hnan : HasNonFinite [0 / 0, 2] := by decide
  have hinfinite : HasNonFinite [1, 1 / 0] := by decide
  have hremaining : remaining 4 {1, 3} = [0, 2] := by decide
  obtain ⟨distances, -, hresult, hinf, hdeleted⟩ := minDistances_isolated .euclidean hshape
  have hrest := hdeleted {1, 3} ?_ ?_ .fast
  · rw [show List.length _ = 4 from rfl, hremaining] at hrest
    exact ⟨hshape, hfit, hnan, distances, hresult .fast hfit, hinf 1 [0 / 0, 2] rfl hnan, hfit',
      hrest hfit'⟩
  · intro t ht x hx
    rw [Finset.mem_insert, Finset.mem_singleton] at ht
    rcases ht with rfl | rfl <;> cases hx
    · exact hnan
    · exact hinfinite
  · exact Nat.le_of_eq (congrArg List.length hremaining).symm

end Proximity
