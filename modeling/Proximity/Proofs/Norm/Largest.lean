import Proximity.Proofs.Norm.NaN

/-!
# The largest absolute difference

The maximum norm starts from zero and keeps the largest absolute difference that it meets.  The zero
itself is never the result, since the first difference takes its place, and a NaN is not passed over.

* `Norm.maximum_accumulate_zero` : one difference leads to its absolute value.
* `Norm.abs_le_fold_maximum` : no absolute difference is above the accumulator.
* `Norm.fold_maximum_mem` : **the accumulator is one of the absolute differences**.
-/

namespace Proximity

namespace Norm

variable {ds : List Float} {d : Float}

theorem maximum_accumulate_zero (d : Float) : maximum.accumulate 0 d = d.abs := by
  rcases maximum_accumulate 0 d with ⟨heq, -⟩ | ⟨heq, hle, hnan⟩ <;> rw [heq]
  -- a difference that does not replace the zero is one
  have hnonneg := Scalar.abs_nonneg hnan
  refine Scalar.eq_of_not_lt rfl (by rwa [Scalar.isNaN_abs]) (by decide)
    (Scalar.abs_ne_negative_zero d) hle fun hlt => ?_
  exact Scalar.lt_irrefl _ (Scalar.lt_of_lt_of_le hlt hnonneg)

/-- The fold over one difference. -/
theorem fold_maximum_singleton (d : Float) : maximum.fold [d] = d.abs :=
  maximum_accumulate_zero d

/-- No absolute difference is above the accumulator. -/
theorem abs_le_fold_maximum (hds : ∀ d ∈ ds, d.isNaN = false) (hd : d ∈ ds) :
    d.abs ≤ maximum.fold ds := by
  have hfold : [d].foldl maximum.accumulate 0 ≤ ds.foldl maximum.accumulate 0 :=
    monotone_maximum.foldl_le_foldl prunable_maximum.inflationary (List.singleton_sublist.2 hd) hds
      (Scalar.le_refl rfl) (Scalar.le_refl rfl)
  rw [← fold_maximum_singleton]
  exact hfold

/-- **The accumulator is one of the absolute differences.** -/
theorem fold_maximum_mem (hne : ds ≠ []) : maximum.fold ds ∈ ds.map Float.abs := by
  cases ds with
  | nil => exact absurd rfl hne
  | cons d ds =>
    rw [fold, List.foldl_cons, maximum_accumulate_zero, List.map_cons, List.mem_cons]
    have hstep : ∀ p d, maximum.accumulate p d = p ∨ maximum.accumulate p d = d.abs := by
      intro p d
      rcases maximum_accumulate p d with ⟨heq, -⟩ | ⟨heq, -⟩
      · exact .inr heq
      · exact .inl heq
    refine (foldl_eq_or_exists hstep ds d.abs).imp_right ?_
    rintro ⟨e, he, heq⟩
    rw [heq]
    exact List.mem_map_of_mem he

end Norm

end Proximity
