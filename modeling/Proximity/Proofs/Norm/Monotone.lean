import Proximity.Proofs.Norm.NonFinite

/-!
# Folds over more components

A standard norm keeps the order of accumulators when the same component is added to both, and it
does not decrease when a component is added.  So a fold over more components, wherever they stand,
does not lead to a smaller accumulator.

* `Norm.Monotone` : a component that is not a NaN keeps the order of accumulators.
* `Norm.Monotone.foldl_le_foldl` : **a fold over more components is not smaller**.
* `NormMode.monotone_norm` : the standard norms are monotone.
* `NormMode.accumulated_le_accumulated` : rows with more components are not nearer.
-/

namespace Proximity

namespace Norm

/-- A component that is not a NaN keeps the order of accumulators that are not negative. -/
def Monotone (norm : Norm) : Prop :=
  ∀ p q d, 0 ≤ p → p ≤ q → d.isNaN = false → norm.accumulate p d ≤ norm.accumulate q d

variable {norm : Norm} {p q d : Float}

theorem Inflationary.le_accumulate (hup : norm.Inflationary) (hp : 0 ≤ p)
    (hnan : (norm.accumulate p d).isNaN = false) : p ≤ norm.accumulate p d := by
  refine (hup p d hp).resolve_left ?_
  rw [hnan]
  exact Bool.false_ne_true

/-- A component that is not a NaN does not decrease an accumulator. -/
theorem Monotone.le_accumulate (h : norm.Monotone) (hup : norm.Inflationary) (hp : 0 ≤ p)
    (hd : d.isNaN = false) : p ≤ norm.accumulate p d := by
  have hself := h p p d hp (Scalar.le_refl (Scalar.isNaN_right_of_le hp)) hd
  exact hup.le_accumulate hp (Scalar.isNaN_left_of_le hself)

/-- **A fold over more components is not smaller**, and it is not smaller either if it starts from a
larger accumulator, as long as no component is a NaN. -/
theorem Monotone.foldl_le_foldl (h : norm.Monotone) (hup : norm.Inflationary) {ds es : List Float}
    (hsub : ds.Sublist es) (hes : ∀ d ∈ es, d.isNaN = false) (hp : 0 ≤ p) (hpq : p ≤ q) :
    ds.foldl norm.accumulate p ≤ es.foldl norm.accumulate q := by
  induction hsub generalizing p q with
  | slnil => exact hpq
  | cons d _ ih =>
    -- a component of the larger fold only
    obtain ⟨hd, hes⟩ := List.forall_mem_cons.1 hes
    exact ih hes hp (Scalar.le_trans hpq (h.le_accumulate hup (Scalar.le_trans hp hpq) hd))
  | cons_cons d _ ih =>
    obtain ⟨hd, hes⟩ := List.forall_mem_cons.1 hes
    exact ih hes (Scalar.le_trans hp (h.le_accumulate hup hp hd)) (h p q d hp hpq hd)

/-! ### The standard norms -/

theorem monotone_of_squares (h : ∀ p d, norm.accumulate p d = p + d * d) : norm.Monotone := by
  intro p q d hp hpq hd
  rw [h, h]
  exact Scalar.add_le_add_right hp hpq (Scalar.square_nonneg hd)

/-- The largest absolute difference is not below the one that is added. -/
theorem abs_le_maximum (hq : q.isNaN = false) (hd : d.isNaN = false) :
    d.abs ≤ maximum.accumulate q d := by
  have habs : d.abs.isNaN = false := by rwa [Scalar.isNaN_abs]
  rcases maximum_accumulate q d with ⟨heq, -⟩ | ⟨heq, hle, -⟩ <;> rw [heq]
  · exact Scalar.le_refl habs
  · exact Scalar.le_of_not_lt habs hq hle

theorem monotone_maximum : maximum.Monotone := by
  intro p q d hp hpq hd
  have habs := abs_le_maximum (Scalar.isNaN_right_of_le hpq) hd
  have hq : q ≤ maximum.accumulate q d :=
    prunable_maximum.inflationary.le_accumulate (Scalar.le_trans hp hpq)
      (Scalar.isNaN_right_of_le habs)
  rcases maximum_accumulate p d with ⟨heq, -⟩ | ⟨heq, -⟩ <;> rw [heq]
  · exact habs
  · exact Scalar.le_trans hpq hq

end Norm

namespace NormMode

/-- **The standard norms are monotone.** -/
theorem monotone_norm (mode : NormMode) : mode.norm.Monotone := by
  cases mode with
  | euclidean => exact Norm.monotone_of_squares fun _ _ => rfl
  | euclideanNormalised => exact Norm.monotone_of_squares fun _ _ => rfl
  | maxNorm => exact Norm.monotone_maximum

/-- An accumulator below infinity is not below the one over fewer components. -/
theorem accumulated_le_accumulated (mode : NormMode) {x y x' y' : List Float}
    (hsub : (differences x y).Sublist (differences x' y'))
    (hlt : mode.norm.accumulated x' y' < Scalar.infinity) :
    mode.norm.accumulated x y ≤ mode.norm.accumulated x' y' := by
  have hup := mode.prunable_norm.ascending
  refine mode.monotone_norm.foldl_le_foldl hup.inflationary hsub ?_ (by decide) (by decide)
  intro d hd
  by_contra hnan
  rw [Bool.not_eq_false] at hnan
  exact hup.not_fold_lt_infinity mode.rejectsNonFinite_norm hd (Scalar.isFinite_of_isNaN hnan) hlt

end NormMode

end Proximity
