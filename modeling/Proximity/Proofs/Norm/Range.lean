import Proximity.Proofs.Binary64.Bounds
import Proximity.Proofs.Norm.Finish
import Proximity.Proofs.Norm.NaN
import Proximity.Proofs.Norm.NonFinite

/-!
# Distances of finite vectors

Two finite numbers have a difference that is no NaN, so the distance of two finite vectors is no NaN
either.  It can be infinite, though: nothing keeps a difference, a square or a sum from leaving the
finite range.  Finishing neither causes this nor makes up for it.

Some components are small enough for any number of them.  A sum of squares that has reached
`2 ^ 1023` does not change any more if a square of at most `2 ^ 970` is added, since that is half of
its last place.

* `Scalar.powerOfTwo` : a power of two.
* `Norm.Contains` : small components do not lead an accumulator above a limit.
* `NormMode.range` : components up to here have finite distances, **however many there are**.
* `NormMode.isFinite_distance_iff` : **a distance is finite if and only if its accumulator is**.
* `NormMode.isFinite_distance` : distances of vectors in range are finite.
-/

namespace Proximity

namespace Scalar

variable {a : Float}

/-- The power of two with the given exponent, which is at most 1023. -/
def powerOfTwo (e : ℕ) : Float := Float.ofBits (UInt64.ofNat (e + 1023) <<< 52)

theorem isFinite_abs (a : Float) : a.abs.isFinite = a.isFinite := by
  change a.abs.toModel.unpack.isFinite = a.toModel.unpack.isFinite
  rw [unpack_abs]
  cases a.toModel.unpack <;> rfl

/-- A number whose absolute value is below infinity is finite. -/
theorem isFinite_of_abs_lt (h : a.abs < infinity) : a.isFinite = true := by
  have hnan := isNaN_left_of_lt h
  rw [isNaN_abs] at hnan
  rw [← isFinite_abs]
  exact (isFinite_iff_lt_infinity (abs_nonneg hnan)).2 h

end Scalar

/-! ### Small components -/

namespace Norm

/-- Components of at most `step` do not lead an accumulator above `limit`. -/
def Contains (norm : Norm) (step limit : Float) : Prop :=
  ∀ p d, 0 ≤ p → p ≤ limit → d.abs ≤ step → norm.accumulate p d ≤ limit

variable {norm : Norm} {step limit : Float}

theorem Contains.foldl_le (h : norm.Contains step limit) (hup : norm.Inflationary)
    {ds : List Float} (hds : ∀ d ∈ ds, d.abs ≤ step) {p : Float} (hp : 0 ≤ p) (hle : p ≤ limit) :
    ds.foldl norm.accumulate p ≤ limit := by
  induction ds generalizing p with
  | nil => exact hle
  | cons d ds ih =>
    obtain ⟨hd, hds⟩ := List.forall_mem_cons.1 hds
    have hstep := h p d hp hle hd
    have hincrease := hup.le_accumulate hp (Scalar.isNaN_left_of_le hstep)
    exact ih hds (Scalar.le_trans hp hincrease) hstep

/-- A square of at most half of the last place of the limit is absorbed by it. -/
theorem contains_of_squares (h : ∀ p d, norm.accumulate p d = p + d * d) :
    norm.Contains (Scalar.powerOfTwo 485) (Scalar.powerOfTwo 1023) := by
  intro p d hp hle hd
  have hnan : d.isNaN = false := by
    rw [← Scalar.isNaN_abs]
    exact Scalar.isNaN_left_of_le hd
  have hsquare := Scalar.square_le_square (Scalar.abs_nonneg hnan) hd
  rw [Scalar.abs_mul_abs] at hsquare
  have hsum := Scalar.add_le_add hp hle (Scalar.square_nonneg hnan) hsquare
  have habsorbed : Scalar.powerOfTwo 1023 + Scalar.powerOfTwo 485 * Scalar.powerOfTwo 485 =
      Scalar.powerOfTwo 1023 := by decide +kernel
  rwa [h, ← habsorbed]

theorem contains_maximum (limit : Float) : maximum.Contains limit limit := by
  intro p d _ hle hd
  rcases maximum_accumulate p d with ⟨heq, -⟩ | ⟨heq, -⟩ <;> rw [heq]
  · exact hd
  · exact hle

end Norm

/-! ### Differences of vectors -/

theorem exists_of_mem_differences {x y : List Float} {d : Float} (h : d ∈ differences x y) :
    ∃ a ∈ x, ∃ b ∈ y, a - b = d := by
  obtain ⟨i, hi⟩ := List.mem_iff_getElem?.1 h
  obtain ⟨a, b, ha, hb, hab⟩ := getElem?_differences_eq_some.1 hi
  exact ⟨a, List.mem_of_getElem? ha, b, List.mem_of_getElem? hb, hab⟩

/-- The differences of finite vectors are no NaNs. -/
theorem isNaN_of_mem_differences {x y : List Float} (hx : ∀ a ∈ x, a.isFinite = true)
    (hy : ∀ b ∈ y, b.isFinite = true) {d : Float} (hd : d ∈ differences x y) :
    d.isNaN = false := by
  obtain ⟨a, ha, b, hb, rfl⟩ := exists_of_mem_differences hd
  exact Scalar.isNaN_sub_of_isFinite (hx a ha) (hy b hb)

/-- The differences of vectors with small components are small. -/
theorem abs_le_of_mem_differences {x y : List Float} {limit : Float}
    (hlimit : limit < Scalar.infinity) (hx : ∀ a ∈ x, a.abs ≤ limit) (hy : ∀ b ∈ y, b.abs ≤ limit)
    {d : Float} (hd : d ∈ differences x y) : d.abs ≤ limit + limit := by
  obtain ⟨a, ha, b, hb, rfl⟩ := exists_of_mem_differences hd
  have hfa := Scalar.isFinite_of_abs_lt (Scalar.lt_of_le_of_lt (hx a ha) hlimit)
  have hfb := Scalar.isFinite_of_abs_lt (Scalar.lt_of_le_of_lt (hy b hb) hlimit)
  refine Scalar.le_trans (Scalar.abs_sub_le hfa hfb) (Scalar.add_le_add ?_ (hx a ha) ?_ (hy b hb))
  · exact Scalar.abs_nonneg (by rw [← Scalar.isNaN_abs]; exact Scalar.isNaN_left_of_le (hx a ha))
  · exact Scalar.abs_nonneg (by rw [← Scalar.isNaN_abs]; exact Scalar.isNaN_left_of_le (hy b hb))

/-! ### The standard norms -/

namespace NormMode

/-- Vectors with components up to here have finite distances, however many components there are. -/
def range : NormMode → Float
  | euclidean | euclideanNormalised => Scalar.powerOfTwo 484
  | maxNorm => Scalar.powerOfTwo 1022

variable (mode : NormMode) {x y : List Float} {p : Float} {dims : ℕ}

theorem range_lt_infinity : mode.range < Scalar.infinity := by
  cases mode <;> decide

theorem contains_norm :
    mode.norm.Contains (mode.range + mode.range) (Scalar.powerOfTwo 1023) := by
  cases mode with
  | euclidean => exact Norm.contains_of_squares fun _ _ => rfl
  | euclideanNormalised => exact Norm.contains_of_squares fun _ _ => rfl
  | maxNorm => exact Norm.contains_maximum _

theorem finish_nonneg (hdims : 0 < dims) (hp : 0 ≤ p) : 0 ≤ mode.norm.finish p dims := by
  cases mode with
  | euclidean => exact Scalar.sqrt_nonneg hp
  | euclideanNormalised =>
    exact Scalar.div_nonneg (Scalar.sqrt_nonneg hp) (Scalar.sqrt_ofCount_pos hdims)
      (Scalar.sqrt_ofCount_lt_infinity hdims)
  | maxNorm => exact hp

/-- Finishing leaves a finite accumulator finite. -/
theorem finish_lt_infinity (hdims : 0 < dims) (hp : 0 ≤ p) (h : p < Scalar.infinity) :
    mode.norm.finish p dims < Scalar.infinity := by
  cases mode with
  | euclidean => exact Scalar.sqrt_lt_infinity hp h
  | euclideanNormalised =>
    exact Scalar.div_lt_infinity (Scalar.sqrt_nonneg hp) (Scalar.sqrt_lt_infinity hp h)
      (Scalar.one_le_sqrt_ofCount hdims) (Scalar.sqrt_ofCount_lt_infinity hdims)
  | maxNorm => exact h

theorem finish_lt_infinity_iff (hdims : 0 < dims) (hp : 0 ≤ p) :
    mode.norm.finish p dims < Scalar.infinity ↔ p < Scalar.infinity := by
  refine ⟨fun h => ?_, mode.finish_lt_infinity hdims hp⟩
  by_contra hinfinite
  have hle := Scalar.le_of_not_lt rfl (Scalar.isNaN_right_of_le hp) hinfinite
  have hfinish := mode.orderedFinish_norm.finish_le dims _ _ hdims (by decide) hle
  rw [mode.orderedFinish_norm.finish_infinity dims hdims] at hfinish
  exact Scalar.lt_irrefl _ (Scalar.lt_of_le_of_lt hfinish h)

section Finite

variable (hx : ∀ a ∈ x, a.isFinite = true) (hy : ∀ b ∈ y, b.isFinite = true)

include hx hy

theorem accumulated_nonneg : 0 ≤ mode.norm.accumulated x y :=
  mode.fold_nonneg fun _ hd => isNaN_of_mem_differences hx hy hd

/-- Distances of finite vectors are not negative, and no NaNs. -/
theorem distance_nonneg (hpos : 0 < x.length) : 0 ≤ mode.norm.distance x y :=
  mode.finish_nonneg hpos (mode.accumulated_nonneg hx hy)

/-- **A distance of finite vectors is finite if and only if its accumulator is.** -/
theorem isFinite_distance_iff (hpos : 0 < x.length) :
    (mode.norm.distance x y).isFinite = true ↔ (mode.norm.accumulated x y).isFinite = true := by
  have haccumulated := mode.accumulated_nonneg hx hy
  rw [Scalar.isFinite_iff_lt_infinity (mode.distance_nonneg hx hy hpos),
    Scalar.isFinite_iff_lt_infinity haccumulated]
  exact mode.finish_lt_infinity_iff hpos haccumulated

end Finite

/-- Distances of vectors in range are finite. -/
theorem isFinite_distance (hx : ∀ a ∈ x, a.abs ≤ mode.range) (hy : ∀ b ∈ y, b.abs ≤ mode.range)
    (hpos : 0 < x.length) : (mode.norm.distance x y).isFinite = true := by
  have hfinite : ∀ a : Float, a.abs ≤ mode.range → a.isFinite = true := fun a ha =>
    Scalar.isFinite_of_abs_lt (Scalar.lt_of_le_of_lt ha mode.range_lt_infinity)
  have hfx : ∀ a ∈ x, a.isFinite = true := fun a ha => hfinite a (hx a ha)
  have hfy : ∀ b ∈ y, b.isFinite = true := fun b hb => hfinite b (hy b hb)
  rw [mode.isFinite_distance_iff hfx hfy hpos,
    Scalar.isFinite_iff_lt_infinity (mode.accumulated_nonneg hfx hfy)]
  have hle : mode.norm.accumulated x y ≤ Scalar.powerOfTwo 1023 :=
    mode.contains_norm.foldl_le mode.prunable_norm.inflationary
      (fun d hd => abs_le_of_mem_differences mode.range_lt_infinity hx hy hd) (by decide) (by decide)
  exact Scalar.lt_of_le_of_lt hle (by decide)

end NormMode

end Proximity
