import Proximity.Proofs.Binary64.SquareRoot
import Proximity.Proofs.Norm.Largest
import Proximity.Proofs.Norm.Range

/-!
# The maximum norm and the Euclidean norm

The largest absolute difference is one of the differences, so its square is one of the squares that
are added up, and a sum is not below its summands.  What remains is the square root of a square, and
there rounding matters: the Euclidean norm squares small differences without scaling them, and a
square below the normal range is too small or vanishes.

* `Norm.square_le_fold_euclidean` : a sum of squares is not below its summands.
* `Norm.sqrt_square_le_euclidean` : the Euclidean norm is not below the root of the largest square.
* `Norm.maximum_le_euclidean` : **when the maximum norm is not above the Euclidean norm**, and how
  far above it can be.
* `Norm.euclidean_underflow` : differences for which it is above.
-/

namespace Proximity

namespace Norm

variable {ds : List Float} {d : Float} {x y : List Float}

/-- A sum of squares is not below its summands. -/
theorem square_le_fold_euclidean (hds : ∀ d ∈ ds, d.isNaN = false) (hd : d ∈ ds) :
    d * d ≤ euclidean.fold ds := by
  have hsingle : d * d ≤ [d].foldl euclidean.accumulate 0 :=
    Scalar.le_add_left (Scalar.le_refl rfl) (Scalar.square_nonneg (hds d hd))
  have hfold : [d].foldl euclidean.accumulate 0 ≤ euclidean.fold ds :=
    NormMode.euclidean.monotone_norm.foldl_le_foldl NormMode.euclidean.prunable_norm.inflationary
      (List.singleton_sublist.2 hd) hds (Scalar.le_refl rfl) (Scalar.le_refl rfl)
  exact Scalar.le_trans hsingle hfold

/-- The Euclidean norm is not below the root of the square of the largest absolute difference. -/
theorem sqrt_square_le_euclidean (hds : ∀ d ∈ ds, d.isNaN = false) :
    (maximum.fold ds * maximum.fold ds).sqrt ≤ (euclidean.fold ds).sqrt := by
  by_cases hne : ds = []
  · subst hne
    decide
  · obtain ⟨d, hd, habs⟩ := List.mem_map.1 (fold_maximum_mem hne)
    rw [← habs, Scalar.abs_mul_abs]
    exact Scalar.sqrt_le_sqrt (Scalar.square_nonneg (hds d hd)) (square_le_fold_euclidean hds hd)

/-- **The maximum norm and the Euclidean norm** of finite vectors.  The maximum norm is not above
the Euclidean norm if it is zero, or if it is so large that its square is not below the normal range.
In no case is it more than `2 ^ (-537)` above. -/
theorem maximum_le_euclidean (hx : ∀ a ∈ x, a.isFinite = true) (hy : ∀ b ∈ y, b.isFinite = true) :
    (maximum.distance x y = 0 ∨ Scalar.powerOfHalf 511 ≤ maximum.distance x y →
      maximum.distance x y ≤ euclidean.distance x y) ∧
    maximum.distance x y ≤ euclidean.distance x y + Scalar.powerOfHalf 537 := by
  have hds : ∀ d ∈ differences x y, d.isNaN = false := fun d =>
    isNaN_of_mem_differences hx hy
  have hmaximum : 0 ≤ maximum.distance x y := NormMode.maxNorm.fold_nonneg hds
  have heuclidean : 0 ≤ euclidean.distance x y :=
    Scalar.sqrt_nonneg (NormMode.euclidean.fold_nonneg hds)
  have hle : (maximum.distance x y * maximum.distance x y).sqrt ≤ euclidean.distance x y :=
    sqrt_square_le_euclidean hds
  constructor
  · rintro (hzero | hlarge)
    · rwa [hzero]
    · exact Scalar.le_trans (Scalar.le_sqrt_square hlarge) hle
  · have hroot := Scalar.sqrt_nonneg (Scalar.square_nonneg (Scalar.isNaN_right_of_le hmaximum))
    exact Scalar.le_trans (Scalar.le_sqrt_square_add hmaximum)
      (Scalar.add_le_add_right hroot hle (by decide))

/-- Two vectors with the largest difference 2, and two with a difference that has no square. -/
theorem maximum_le_euclidean_small :
    (∀ a ∈ ([3, 1] : List Float), a.isFinite = true) ∧
    (∀ b ∈ ([1, 2] : List Float), b.isFinite = true) ∧
    maximum.distance [3, 1] [1, 2] ≤ euclidean.distance [3, 1] [1, 2] ∧
    maximum.distance [Scalar.powerOfHalf 600] [0] ≤
      euclidean.distance [Scalar.powerOfHalf 600] [0] + Scalar.powerOfHalf 537 := by
  have ha : ∀ a ∈ ([3, 1] : List Float), a.isFinite = true := by decide
  have hb : ∀ b ∈ ([1, 2] : List Float), b.isFinite = true := by decide
  obtain ⟨hlarge, -⟩ := maximum_le_euclidean ha hb
  obtain ⟨-, hsmall⟩ := maximum_le_euclidean (x := [Scalar.powerOfHalf 600]) (y := [0])
    (by decide) (by decide)
  exact ⟨ha, hb, hlarge (.inr (by decide +kernel)), hsmall⟩

/-- The square of a difference of `2 ^ (-600)` vanishes, and with it the Euclidean norm.  The square
of a number that is below `2 ^ (-511)` by less than one part in ten million does not vanish, but it
has lost too much. -/
theorem euclidean_underflow :
    (∀ a ∈ [Scalar.powerOfHalf 600], a.isFinite = true) ∧
    (∀ b ∈ ([0] : List Float), b.isFinite = true) ∧
    maximum.distance [Scalar.powerOfHalf 600] [0] = Scalar.powerOfHalf 600 ∧
    euclidean.distance [Scalar.powerOfHalf 600] [0] = 0 ∧
    ¬ maximum.distance [Scalar.powerOfHalf 600] [0] ≤
      euclidean.distance [Scalar.powerOfHalf 600] [0] ∧
    Float.ofBits 0x1FFFFFFFF633B8F6 < Scalar.powerOfHalf 511 ∧
    ¬ maximum.distance [Float.ofBits 0x1FFFFFFFF633B8F6] [0] ≤
      euclidean.distance [Float.ofBits 0x1FFFFFFFF633B8F6] [0] := by
  decide +kernel

end Norm

end Proximity
