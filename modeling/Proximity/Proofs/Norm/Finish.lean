import Proximity.Proofs.Binary64.Ordered
import Proximity.Proofs.Norm.Laws

/-!
# Finishing an accumulator

A search compares accumulators and finishes only the best one.  That gives the least distance if
finishing keeps the order.

* `Norm.OrderedFinish` : finishing keeps the order of accumulators, infinity and NaNs.
* `Norm.distance_ne_negative_zero` : the zero of a distance is the positive one.
* `NormMode.orderedFinish_norm` : **the standard norms finish in order**.
-/

namespace Proximity

/-- Finishing keeps the order of accumulators over a positive number of dimensions. -/
structure Norm.OrderedFinish (norm : Norm) : Prop where
  /-- Larger accumulators give larger distances. -/
  finish_le : ∀ dims p q, 0 < dims → 0 ≤ p → p ≤ q → norm.finish p dims ≤ norm.finish q dims
  /-- Infinity is a distance. -/
  finish_infinity : ∀ dims, 0 < dims → norm.finish Scalar.infinity dims = Scalar.infinity
  /-- A NaN is not a distance. -/
  isNaN_finish : ∀ dims p, p.isNaN = true → (norm.finish p dims).isNaN = true
  /-- The zero of a distance is the positive one. -/
  finish_ne : ∀ dims p, 0 < dims → 0 ≤ p → p ≠ -0 → norm.finish p dims ≠ -0

namespace Norm

section Distance

variable {norm : Norm}

theorem admissible_accumulated (h : norm.Prunable) (x y : List Float) :
    Admissible (norm.accumulated x y) :=
  h.admissible_foldl (differences x y) admissible_zero

/-- A distance is a NaN, or its zero is the positive one. -/
theorem OrderedFinish.finish_ne_negative_zero (h : norm.OrderedFinish) {dims : ℕ}
    (hdims : 0 < dims) {p : Float} (hp : Admissible p) : norm.finish p dims ≠ -0 := by
  rcases hp with hnan | ⟨hnonneg, hzero⟩
  · exact ne_negative_zero_of_isNaN (h.isNaN_finish dims p hnan)
  · exact h.finish_ne dims p hdims hnonneg hzero

theorem distance_ne_negative_zero (h : norm.Prunable) (hfinish : norm.OrderedFinish)
    {x : List Float} (hx : 0 < x.length) (y : List Float) : norm.distance x y ≠ -0 :=
  hfinish.finish_ne_negative_zero hx (admissible_accumulated h x y)

end Distance

theorem orderedFinish_euclidean : euclidean.OrderedFinish where
  finish_le _ _ _ _ hp hpq := Scalar.sqrt_le_sqrt hp hpq
  finish_infinity _ _ := Scalar.sqrt_infinity
  isNaN_finish _ _ hp := Scalar.isNaN_sqrt hp
  finish_ne _ _ _ hp hp₀ := Scalar.sqrt_ne_negative_zero hp hp₀

theorem orderedFinish_euclideanNormalised : euclideanNormalised.OrderedFinish where
  finish_le dims p q hdims hp hpq :=
    Scalar.div_le_div (Scalar.sqrt_nonneg hp) (Scalar.sqrt_le_sqrt hp hpq)
      (Scalar.sqrt_ofCount_pos hdims) (Scalar.sqrt_ofCount_lt_infinity hdims)
  finish_infinity dims hdims := by
    change Scalar.infinity.sqrt / _ = _
    rw [Scalar.sqrt_infinity]
    exact Scalar.infinity_div (Scalar.sqrt_ofCount_pos hdims)
      (Scalar.sqrt_ofCount_lt_infinity hdims)
  isNaN_finish _ _ hp := Scalar.isNaN_div (Scalar.isNaN_sqrt hp) _
  finish_ne dims p hdims hp hp₀ :=
    Scalar.div_ne_negative_zero (Scalar.sqrt_nonneg hp) (Scalar.sqrt_ne_negative_zero hp hp₀)
      (Scalar.sqrt_ofCount_pos hdims) (Scalar.sqrt_ofCount_lt_infinity hdims)

theorem orderedFinish_maximum : maximum.OrderedFinish where
  finish_le _ _ _ _ _ hpq := hpq
  finish_infinity _ _ := rfl
  isNaN_finish _ _ hp := hp
  finish_ne _ _ _ _ hp₀ := hp₀

end Norm

/-- **The standard norms finish in order.** -/
theorem NormMode.orderedFinish_norm (mode : NormMode) : mode.norm.OrderedFinish := by
  cases mode with
  | euclidean => exact Norm.orderedFinish_euclidean
  | euclideanNormalised => exact Norm.orderedFinish_euclideanNormalised
  | maxNorm => exact Norm.orderedFinish_maximum

theorem NormMode.distance_ne_negative_zero (mode : NormMode) {x : List Float}
    (hx : 0 < x.length) (y : List Float) : mode.norm.distance x y ≠ -0 :=
  Norm.distance_ne_negative_zero mode.prunable_norm mode.orderedFinish_norm hx y

end Proximity
