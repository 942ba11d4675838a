import Proximity.Proofs.Norm.Variants
import Proximity.Proofs.Observations
import Proximity.Proofs.PartialDistance
import Proximity.Proofs.Search.Basic
import Proximity.Search.Naive

/-!
# The naive search finds the nearest rows

Every comparison may be abandoned, against a bound that depends on all comparisons before it.  For a
norm that may be pruned this changes nothing: the search keeps the best accumulator exactly as if
every comparison were complete.  The operands are never exchanged here, so the norm may be
one-sided.

* `Naive.compare_eq` : an abandoned comparison is as good as a complete one.
* `Naive.isNearest_nearest` : the best accumulator of a row is the nearest one.
* `Naive.minDistances_nearest` : **the result has, for every row in order, the finished nearest
  accumulator**.
-/

namespace Proximity

namespace Naive

variable {norm : Norm} {rows : Observations}

/-- An abandoned comparison is as good as a complete one. -/
theorem compare_eq (h : norm.Ascending) (x : List Float) (best : Float) (y : List Float) :
    compare norm x best y = improve best (norm.accumulated x y) := by
  obtain ⟨hfold, hstop⟩ :=
    (PartialDistance.isPrefix_start norm (differences x y)).resume rfl rfl best
  exact hfold.improve_eq h hstop

/-- Comparing with some rows keeps the best of the complete accumulators. -/
theorem foldl_compare_eq (h : norm.Ascending) (x : List Float)
    (visits : List (List Float × ℕ)) :
    visits.foldl (fun best other => compare norm x best other.1) Scalar.infinity =
      (visits.map fun other => norm.accumulated x other.1).foldl improve Scalar.infinity := by
  rw [List.foldl_map]
  simp only [compare_eq h]

theorem isNearest_foldl_compare (h : norm.Ascending) (x : List Float)
    (visits : List (List Float × ℕ)) :
    IsNearest {v | v ∈ visits.map fun other => norm.accumulated x other.1}
      (visits.foldl (fun best other => compare norm x best other.1) Scalar.infinity) := by
  have hrun := IsNearest.empty.foldl_improve
    (visits.map fun other => norm.accumulated x other.1)
  rwa [Set.empty_union, ← foldl_compare_eq h] at hrun

theorem isNearest_nearest (h : norm.Prunable) (rows : Observations) (x : List Float) (t : ℕ) :
    IsNearest (otherValues rows t fun _ y => norm.accumulated x y) (nearest norm rows x t) := by
  rw [otherValues_eq]
  exact isNearest_foldl_compare h.ascending x (others rows t)

/-! ### All rows -/

@[simp] theorem length_bests (norm : Norm) (rows : Observations) :
    (bests norm rows).length = rows.length := by
  rw [bests, List.length_map, List.length_zipIdx]

theorem getElem?_bests {t : ℕ} {x : List Float} (hx : rows[t]? = some x) :
    (bests norm rows)[t]? = some (nearest norm rows x t) := by
  rw [bests, List.getElem?_map, List.getElem?_zipIdx, hx, Nat.zero_add]
  rfl

/-- The distances of a table that can be searched. -/
theorem minDistances_eq {shape : Shape} (hshape : rows.searchShape = .ok shape) :
    minDistances norm rows = .ok (finishAll norm shape.dims (bests norm rows)) := by
  rw [minDistances, hshape]
  rfl

/-- **The naive search is exact** for every norm that may be pruned, also for a one-sided one: the
distance of row `t` is finished from the least accumulator of row `t` with another row that is below
infinity, or from infinity if there is none.  There is one distance for each row, in row order. -/
theorem minDistances_nearest (h : norm.Prunable) {shape : Shape}
    (hshape : rows.searchShape = .ok shape) :
    ∃ distances, minDistances norm rows = .ok distances ∧ distances.length = rows.length ∧
      ∀ t x, rows[t]? = some x →
        ∃ m, IsNearest (otherValues rows t fun _ y => norm.accumulated x y) m ∧
          (∀ m', IsNearest (otherValues rows t fun _ y => norm.accumulated x y) m' → m' = m) ∧
          distances[t]? = some (norm.finish m shape.dims) := by
  refine ⟨finishAll norm shape.dims (bests norm rows), ?_, ?_, ?_⟩
  · rw [minDistances, hshape]
    rfl
  · rw [length_finishAll, length_bests]
  · intro t x hx
    have hnearest := isNearest_nearest h rows x t
    refine ⟨_, hnearest, fun m' hm' => ?_, ?_⟩
    · exact hm'.eq_of_otherValues (fun _ y => h.fold_ne_negative_zero (differences x y)) hnearest
    · rw [getElem?_finishAll, getElem?_bests hx]
      rfl

/-- The one-sided distance of the second of three rows, one of them with a component that is not a
number. -/
theorem minDistances_nearest_excess :
    Norm.excess.Prunable ∧
    Observations.searchShape [[0, 4], [3, 1], [0 / 0, 2]] = .ok ⟨3, 2⟩ ∧
    ∃ distances m, minDistances .excess [[0, 4], [3, 1], [0 / 0, 2]] = .ok distances ∧
      IsNearest (otherValues [[0, 4], [3, 1], [0 / 0, 2]] 1 fun _ y =>
        Norm.excess.accumulated [3, 1] y) m ∧
      distances[1]? = some m := by
  have hshape : Observations.searchShape [[0, 4], [3, 1], [0 / 0, 2]] = .ok ⟨3, 2⟩ := by decide
  obtain ⟨distances, hresult, -, hrow⟩ := minDistances_nearest Norm.prunable_excess hshape
  obtain ⟨m, hm, -, hd⟩ := hrow 1 [3, 1] rfl
  exact ⟨Norm.prunable_excess, hshape, distances, m, hresult, hm, hd⟩

end Naive

end Proximity
