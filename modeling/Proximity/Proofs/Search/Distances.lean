import Proximity.Proofs.Norm.Finish
import Proximity.Proofs.Search.Agreement

/-!
# The nearest row by distance

A search compares accumulators.  For a norm that finishes in order, the finished best accumulator of
a row is the least of its distances to the other rows, where a distance that is a NaN is passed
over.

* `IsNearest.finish` : finishing keeps the nearest one.
* `isNearest_foldl_smaller` : taking the smaller of two numbers, over a list, finds the nearest one.
* `Naive.isNearest_distance` : **the result of a search, by distance**.
-/

namespace Proximity

variable {norm : Norm}

/-! ### Finishing the nearest accumulator -/

theorem IsNearest.nonneg {values : Set Float} {m : Float} (h : IsNearest values m)
    (hvalues : ∀ v ∈ values, Norm.Admissible v) : 0 ≤ m ∧ m ≠ -0 := by
  rcases h.attained with rfl | ⟨hmem, -⟩
  · decide
  · rcases hvalues m hmem with hnan | hm
    · rw [h.isNaN_eq_false] at hnan
      cases hnan
    · exact hm

/-- Finishing keeps the nearest one. -/
theorem IsNearest.finish (h : norm.OrderedFinish) {dims : ℕ} (hdims : 0 < dims)
    {values : Set Float} {m : Float} (hvalues : ∀ v ∈ values, Norm.Admissible v)
    (hm : IsNearest values m) :
    IsNearest ((fun v => norm.finish v dims) '' values) (norm.finish m dims) := by
  obtain ⟨hm₀, hm₁⟩ := hm.nonneg hvalues
  have hle : norm.finish m dims ≤ Scalar.infinity := by
    rw [← h.finish_infinity dims hdims]
    exact h.finish_le dims m _ hdims hm₀ hm.le_infinity
  constructor
  · by_cases hlt : norm.finish m dims < Scalar.infinity
    · refine .inr ⟨?_, hlt⟩
      rcases hm.attained with rfl | ⟨hmem, -⟩
      · rw [h.finish_infinity dims hdims] at hlt
        exact absurd hlt (Scalar.lt_irrefl _)
      · exact ⟨m, hmem, rfl⟩
    · -- an accumulator below infinity may still be finished to infinity
      refine .inl (Scalar.eq_of_not_lt (Scalar.isNaN_left_of_le hle) Scalar.isNaN_infinity
        (h.finish_ne dims m hdims hm₀ hm₁) (by decide) hlt ?_)
      exact fun hgt => Scalar.lt_irrefl _ (Scalar.lt_of_lt_of_le hgt hle)
  · rintro w ⟨v, hv, rfl⟩ hlt
    have hnan : v.isNaN = false := by
      by_contra hnan
      rw [Bool.not_eq_false] at hnan
      exact absurd (h.isNaN_finish dims v hnan) (by rw [Scalar.isNaN_left_of_lt hlt]; decide)
    refine h.finish_le dims m v hdims hm₀ ?_
    by_cases hinf : v < Scalar.infinity
    · exact hm.le v hv hinf
    · exact Scalar.le_trans hm.le_infinity (Scalar.le_of_not_lt Scalar.isNaN_infinity hnan hinf)

/-! ### The smaller of two numbers -/

theorem smaller_eq_improve {best : Float} (hbest : best.isNaN = false) (v : Float) :
    Scalar.smaller best v = improve best v := by
  by_cases hv : v < best
  · rw [Scalar.smaller_eq_right hv, improve_of_lt hv]
  · rw [Scalar.smaller_eq_left hbest hv, improve_of_not_lt hv]

theorem isNaN_improve {best : Float} (hbest : best.isNaN = false) (v : Float) :
    (improve best v).isNaN = false := by
  by_cases hv : v < best
  · rw [improve_of_lt hv]
    exact Scalar.isNaN_left_of_lt hv
  · rwa [improve_of_not_lt hv]

theorem foldl_smaller_eq_foldl_improve (vs : List Float) {best : Float}
    (hbest : best.isNaN = false) : vs.foldl Scalar.smaller best = vs.foldl improve best := by
  induction vs generalizing best with
  | nil => rfl
  | cons v vs ih =>
    rw [List.foldl_cons, List.foldl_cons, smaller_eq_improve hbest, ih (isNaN_improve hbest v)]

/-- Taking the smaller of two numbers, over a list, finds the nearest one. -/
theorem isNearest_foldl_smaller (vs : List Float) :
    IsNearest {v | v ∈ vs} (vs.foldl Scalar.smaller Scalar.infinity) := by
  rw [foldl_smaller_eq_foldl_improve vs Scalar.isNaN_infinity]
  have hrun := IsNearest.empty.foldl_improve vs
  rwa [Set.empty_union] at hrun

/-! ### The result of a search, by distance -/

theorem otherValues_distance (norm : Norm) (rows : Observations) (t : ℕ) (x : List Float) :
    (otherValues rows t fun _ y => norm.distance x y) =
      (fun v => norm.finish v x.length) '' otherValues rows t fun _ y => norm.accumulated x y := by
  ext w
  constructor
  · rintro ⟨u, y, hut, hy, rfl⟩
    exact ⟨_, ⟨u, y, hut, hy, rfl⟩, rfl⟩
  · rintro ⟨v, ⟨u, y, hut, hy, rfl⟩, rfl⟩
    exact ⟨u, y, hut, hy, rfl⟩

/-- **The result of a search, by distance:** the finished best accumulator of a row is the least of
its distances to the other rows. -/
theorem Naive.isNearest_distance (h : norm.Prunable) (hfinish : norm.OrderedFinish)
    (rows : Observations) {x : List Float} (hx : 0 < x.length) (t : ℕ) :
    IsNearest (otherValues rows t fun _ y => norm.distance x y)
      (norm.finish (Naive.nearest norm rows x t) x.length) := by
  rw [otherValues_distance]
  refine (Naive.isNearest_nearest h rows x t).finish hfinish hx ?_
  rintro v ⟨u, y, -, -, rfl⟩
  exact Norm.admissible_accumulated h x y

end Proximity
