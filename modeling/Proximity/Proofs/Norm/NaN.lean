import Proximity.Proofs.Norm.Monotone

/-!
# NaNs in a fold

A standard norm makes a NaN out of a component that is one, whatever the accumulator is, and it
keeps it.  As long as no component is a NaN the accumulator is a number that is not negative.

* `Norm.DetectsNaN` : a NaN among the components shows at once.
* `Norm.isNaN_fold_of_mem`, `Norm.Monotone.fold_nonneg` : folds with and without a NaN.
* `NormMode.isNaN_fold_iff` : **an accumulator is a NaN exactly if a component is one**.
-/

namespace Proximity

namespace Norm

/-- A component that is a NaN makes the accumulator a NaN. -/
def DetectsNaN (norm : Norm) : Prop :=
  ∀ p d, d.isNaN = true → (norm.accumulate p d).isNaN = true

variable {norm : Norm} {ds : List Float} {d p : Float}

theorem NaNAbsorbing.isNaN_foldl (h : norm.NaNAbsorbing) (ds : List Float)
    (hp : p.isNaN = true) : (ds.foldl norm.accumulate p).isNaN = true := by
  induction ds generalizing p with
  | nil => exact hp
  | cons d ds ih => exact ih (h p d hp)

/-- A NaN among the components is not lost, wherever it stands. -/
theorem isNaN_fold_of_mem (h : norm.NaNAbsorbing) (hd : norm.DetectsNaN) (hmem : d ∈ ds)
    (hnan : d.isNaN = true) : (norm.fold ds).isNaN = true := by
  obtain ⟨before, after, rfl⟩ := List.append_of_mem hmem
  rw [fold, List.foldl_append, List.foldl_cons]
  exact h.isNaN_foldl after (hd _ d hnan)

/-- Without a NaN among the components, an accumulator is not negative. -/
theorem Monotone.fold_nonneg (h : norm.Monotone) (hup : norm.Inflationary)
    (hds : ∀ d ∈ ds, d.isNaN = false) : 0 ≤ norm.fold ds := by
  have hfold : ([] : List Float).foldl norm.accumulate 0 ≤ ds.foldl norm.accumulate 0 :=
    h.foldl_le_foldl hup (List.nil_sublist ds) hds (Scalar.le_refl rfl) (Scalar.le_refl rfl)
  exact hfold

theorem detectsNaN_of_squares (h : ∀ p d, norm.accumulate p d = p + d * d) : norm.DetectsNaN := by
  intro p d hd
  rw [h]
  exact Scalar.isNaN_add (.inr (by rwa [Scalar.isNaN_square]))

theorem detectsNaN_maximum : maximum.DetectsNaN := by
  intro p d hd
  rcases maximum_accumulate p d with ⟨heq, -⟩ | ⟨-, -, hnan⟩
  · rwa [heq, Scalar.isNaN_abs]
  · rw [hd] at hnan
    cases hnan

end Norm

namespace NormMode

variable (mode : NormMode)

theorem detectsNaN_norm : mode.norm.DetectsNaN := by
  cases mode with
  | euclidean => exact Norm.detectsNaN_of_squares fun _ _ => rfl
  | euclideanNormalised => exact Norm.detectsNaN_of_squares fun _ _ => rfl
  | maxNorm => exact Norm.detectsNaN_maximum

theorem fold_nonneg {ds : List Float} (hds : ∀ d ∈ ds, d.isNaN = false) : 0 ≤ mode.norm.fold ds :=
  mode.monotone_norm.fold_nonneg mode.prunable_norm.inflationary hds

/-- **An accumulator is a NaN exactly if a component is one.** -/
theorem isNaN_fold_iff (ds : List Float) :
    (mode.norm.fold ds).isNaN = true ↔ ∃ d ∈ ds, d.isNaN = true := by
  constructor
  · intro h
    by_contra hnone
    simp only [not_exists, not_and, Bool.not_eq_true] at hnone
    rw [Scalar.isNaN_right_of_le (mode.fold_nonneg hnone)] at h
    cases h
  · rintro ⟨d, hmem, hnan⟩
    exact Norm.isNaN_fold_of_mem mode.prunable_norm.absorbing mode.detectsNaN_norm hmem hnan

end NormMode

end Proximity
