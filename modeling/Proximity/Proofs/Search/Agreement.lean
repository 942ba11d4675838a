import Proximity.Proofs.Search.Lockstep

/-!
# The searches agree

The naive search folds every pair from the side of the row that it is searching for.  The fast
search visits the pairs in another order, against other bounds, and folds part of a pair from the
other side.  If a norm does not look at the order of the operands, both find the nearest
accumulator among the same ones, and there is only one.

* `Fast.passValue_eq` : from which side a pair is folded does not matter.
* `Fast.toList_bests_eq` : both searches find the same best accumulators, for a norm that may be
  pruned.
* `result_fast_eq_naive` : the same, also for a norm that recovers from a NaN.
* `NormMode.result_minDistancesBy` : for the standard norms, which search is used does not matter.
* `result_minDistancesBy_twoSided` : nor does it for the further norms that are not one-sided.
* `minDistances_agree` : **the searches return the same result**.
-/

namespace Proximity

variable {norm : Norm} {rows : Observations} {dims : ℕ}

/-! ### The same accumulators -/

namespace Fast

/-- From which side a pair is folded does not matter. -/
theorem passValue_eq (h : norm.SwapEven) (table : PairTable) (t : ℕ) (x : List Float) (u : ℕ)
    (y : List Float) : passValue norm table t x u y = norm.accumulated x y := by
  rw [passValue]
  split_ifs
  · rfl
  · rw [h.fold_mixed, h.fold_comm]
    rfl

theorem toList_bests_eq (h : norm.Prunable) (hswap : norm.SwapEven)
    (hrows : rows.Searchable dims) :
    (sweep norm rows dims).bests.toList = Naive.bests norm rows := by
  refine List.ext_getElem? fun t => ?_
  by_cases ht : t < rows.length
  · have hx := List.getElem?_eq_getElem ht
    -- both are the nearest one among the same accumulators
    have hfast := isNearest_best h hrows hx
    have hset : passValue norm (tableBefore norm rows dims t) t rows[t] =
        fun _ y => norm.accumulated rows[t] y := by
      funext u y
      exact passValue_eq hswap _ t _ u y
    rw [hset] at hfast
    have hnaive := Naive.isNearest_nearest h rows rows[t] t
    have hzero : ∀ y, norm.accumulated rows[t] y ≠ -0 :=
      fun y => h.fold_ne_negative_zero (differences rows[t] y)
    rw [getElem?_toList_bests ht, Naive.getElem?_bests hx,
      hfast.eq_of_otherValues (fun _ y => hzero y) hnaive]
  · rw [List.getElem?_eq_none, List.getElem?_eq_none]
    · rwa [Naive.length_bests, ← Nat.not_lt]
    · rwa [length_toList_bests, ← Nat.not_lt]

end Fast

/-! ### The same results -/

theorem result_fast_eq_naive (hi : norm.Inflationary) (hswap : norm.SwapEven)
    (hz : norm.AvoidsNegativeZero) (hfit : rows.FitTable) :
    (Fast.minDistances norm rows).result = Naive.minDistances norm rows := by
  rw [Fast.result_minDistances, Fast.tableShape_eq_iff.2 hfit, Naive.minDistances]
  cases hshape : rows.searchShape with
  | error e => rfl
  | ok shape =>
    obtain ⟨-, hrows⟩ := Observations.searchShape_eq_ok_iff.1 hshape
    -- the norm need not absorb NaNs, but the one that stops at them does
    have hbests := Fast.toList_bests_eq (Norm.prunable_sticky hi hz) hswap.sticky hrows
    have hfolds := norm.foldsLike_sticky
    rw [hfolds.sweep_eq, hfolds.bests_eq] at hbests
    simp only [Except.map, hbests]

theorem result_minDistancesBy_eq_naive (hi : norm.Inflationary) (hswap : norm.SwapEven)
    (hz : norm.AvoidsNegativeZero) {algorithm : Algorithm} (hfit : algorithm.Admits rows) :
    (minDistancesBy norm algorithm rows).result = Naive.minDistances norm rows := by
  cases algorithm with
  | naive => rfl
  | fast => exact result_fast_eq_naive hi hswap hz (hfit rfl)

namespace NormMode

variable {algorithm : Algorithm}

/-- The standard norms find the same distances by every search. -/
theorem result_minDistancesBy (mode : NormMode) (hfit : algorithm.Admits rows) :
    (minDistancesBy mode.norm algorithm rows).result = Naive.minDistances mode.norm rows :=
  result_minDistancesBy_eq_naive mode.prunable_norm.inflationary mode.swapEven_norm
    mode.prunable_norm.avoids hfit

/-- What either search returns for a table that can be searched. -/
theorem result_minDistancesBy_eq_ok (mode : NormMode) (hrows : rows.Searchable dims)
    (hfit : algorithm.Admits rows) :
    (minDistancesBy mode.norm algorithm rows).result =
      .ok (finishAll mode.norm dims (Naive.bests mode.norm rows)) := by
  rw [mode.result_minDistancesBy hfit, Naive.minDistances_eq hrows.searchShape_eq]

end NormMode

/-- Which search is used does not matter to the further norms that are not one-sided, either. -/
theorem result_minDistancesBy_twoSided (h : norm ∈ Norm.twoSided) {algorithm : Algorithm}
    (hfit : algorithm.Admits rows) :
    (minDistancesBy norm algorithm rows).result = Naive.minDistances norm rows := by
  obtain ⟨⟨hi, -, hz⟩, hswap⟩ := Norm.further_laws (List.mem_append_left Norm.oneSided h)
  exact result_minDistancesBy_eq_naive hi (hswap.2 h) hz hfit

/-- **The searches agree** on every list of rows within the limits of the fast search, valid or not,
and for every threshold: they report the same fault, or they return the same distances, bit for bit.
The norm has to be inflationary and even in the order of operands, and it must not make a negative
zero.  The standard norms are. -/
theorem minDistances_agree :
    (∀ norm : Norm, norm.Inflationary → norm.SwapEven → norm.AvoidsNegativeZero →
      ∀ (rows : Observations) (maxRows : UInt64),
        (rows.FitTable →
          (Fast.minDistances norm rows).result = Naive.minDistances norm rows) ∧
        ((Algorithm.select rows.length maxRows).Admits rows →
          (minDistances norm maxRows rows).result = Naive.minDistances norm rows)) ∧
    (∀ (mode : NormMode) (rows : Observations) (maxRows : UInt64),
      (rows.FitTable →
        (Fast.minDistances mode.norm rows).result = Naive.minDistances mode.norm rows) ∧
      ((Algorithm.select rows.length maxRows).Admits rows →
        (minDistances mode.norm maxRows rows).result = Naive.minDistances mode.norm rows)) := by
  refine ⟨fun norm hi hswap hz rows maxRows => ?_, fun mode rows maxRows => ?_⟩
  · exact ⟨result_fast_eq_naive hi hswap hz, result_minDistancesBy_eq_naive hi hswap hz⟩
  · obtain ⟨hi, -, hz⟩ := mode.prunable_norm
    exact ⟨result_fast_eq_naive hi mode.swapEven_norm hz,
      result_minDistancesBy_eq_naive hi mode.swapEven_norm hz⟩

/-- The maximum norm on three rows, one of them with a NaN and an infinity. -/
theorem minDistances_agree_maximum :
    Norm.maximum.Inflationary ∧ Norm.maximum.SwapEven ∧ Norm.maximum.AvoidsNegativeZero ∧
    Observations.FitTable [[0, 4], [3, 1], [0 / 0, 1 / 0]] ∧
    (Algorithm.select 3 3).Admits [[0, 4], [3, 1], [0 / 0, 1 / 0]] ∧
    (Fast.minDistances .maximum [[0, 4], [3, 1], [0 / 0, 1 / 0]]).result =
      Naive.minDistances .maximum [[0, 4], [3, 1], [0 / 0, 1 / 0]] ∧
    (minDistances .maximum 3 [[0, 4], [3, 1], [0 / 0, 1 / 0]]).result =
      Naive.minDistances .maximum [[0, 4], [3, 1], [0 / 0, 1 / 0]] := by
  have h := Norm.prunable_maximum
  have hfit : Observations.FitTable [[0, 4], [3, 1], [0 / 0, 1 / 0]] := by decide
  have hselected : (Algorithm.select 3 3).Admits [[0, 4], [3, 1], [0 / 0, 1 / 0]] := fun _ => hfit
  obtain ⟨hfast, hthreshold⟩ := minDistances_agree.1 .maximum h.inflationary Norm.swapEven_maximum
    h.avoids [[0, 4], [3, 1], [0 / 0, 1 / 0]] 3
  exact ⟨h.inflationary, Norm.swapEven_maximum, h.avoids, hfit, hselected, hfast hfit,
    hthreshold hselected⟩

/-- A one-sided norm tells the searches apart. -/
example : (Fast.minDistances .excess [[0], [1]]).result ≠
    Naive.minDistances .excess [[0], [1]] := by
  decide +kernel

end Proximity
