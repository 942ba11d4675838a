import Proximity.Engine
import Proximity.Proofs.Norm.Range
import Proximity.Proofs.Observations

/-!
# Special values in a distance

An engine has a distance for every two vectors that can be compared, also if some of their
components are NaNs or infinities.  The differences decide what the distance is then.  A NaN among
them is not lost under any of the standard norms, and without a NaN an infinite difference leads to
infinity.

* `Scalar.isNaN_sub_iff`, `hasNaN_differences_iff` : which differences are NaNs.
* `NormMode.isNaN_distance_iff`, `NormMode.distance_eq_infinity` : distances with special values.
* `Engine.distance_of_comparable`, `Engine.jointDistance_of_comparable` : the distances that an
  engine has.
* `Engine.distance_special` : **what special values do to a distance**.
-/

namespace Proximity

/-! ### Differences -/

namespace Scalar

open Binary64 Float.Model

variable {a b : Float}

theorem isInf_iff : a.isInf = true ↔ ∃ s, a.toModel.unpack = .infinity s := by
  change a.toModel.unpack.isInf = true ↔ _
  cases a.toModel.unpack <;> simp [UnpackedFloat.isInf]

theorem isFinite_of_isInf (h : a.isInf = true) : a.isFinite = false :=
  isFinite_eq_false_iff.2 (.inr (isInf_iff.1 h))

/-- A number is finite, a NaN or an infinity. -/
theorem isFinite_or_isNaN_or_isInf (a : Float) :
    a.isFinite = true ∨ a.isNaN = true ∨ a.isInf = true := by
  cases h : a.isFinite with
  | true => exact .inl rfl
  | false => exact .inr ((isFinite_eq_false_iff.1 h).imp isNaN_iff.2 isInf_iff.2)

/-- **A difference is a NaN** if an operand is one, or if both operands are the same infinity. -/
theorem isNaN_sub_iff :
    (a - b).isNaN = true ↔ a.isNaN = true ∨ b.isNaN = true ∨ a.isInf = true ∧ a = b := by
  have hsub : (a - b).isNaN = true ↔
      stored (UnpackedFloat.sub .binary64 a.toModel.unpack b.toModel.unpack) = .notANumber := by
    rw [isNaN_iff, unpack_sub]
  constructor
  · intro h
    rcases isFinite_or_isNaN_or_isInf a with ha | ha | ha
    · rcases isFinite_or_isNaN_or_isInf b with hb | hb | hb
      · rw [isNaN_sub_of_isFinite ha hb] at h
        cases h
      · exact .inr (.inl hb)
      · -- an infinity is taken away from a finite number
        obtain ⟨t, hb⟩ := isInf_iff.1 hb
        change a.toModel.unpack.isFinite = true at ha
        rw [hsub, hb] at h
        cases hu : a.toModel.unpack <;> rw [hu] at h ha <;> cases ha <;> cases h
    · exact .inl ha
    · obtain ⟨s, hs⟩ := isInf_iff.1 ha
      rw [hsub, hs] at h
      cases hv : b.toModel.unpack with
      | notANumber => exact .inr (.inl (isNaN_iff.2 hv))
      | infinity t =>
        rw [hv] at h
        have hst : s = t := by cases s <;> cases t <;> first | rfl | cases h
        exact .inr (.inr ⟨ha, eq_of_unpack_eq (by rw [hs, hv, hst])⟩)
      | _ =>
        rw [hv] at h
        cases h
  · rw [hsub]
    rintro (ha | hb | ⟨ha, rfl⟩)
    · rw [isNaN_iff.1 ha]
      rfl
    · rw [isNaN_iff.1 hb]
      cases a.toModel.unpack <;> rfl
    · obtain ⟨s, hs⟩ := isInf_iff.1 ha
      rw [hs]
      cases s <;> rfl

end Scalar

/-- One of the components is a NaN. -/
def HasNaN (x : List Float) : Prop := ∃ c ∈ x, c.isNaN = true

instance (x : List Float) : Decidable (HasNaN x) :=
  inferInstanceAs (Decidable (∃ c ∈ x, c.isNaN = true))

theorem not_hasNaN_iff {x : List Float} : ¬ HasNaN x ↔ ∀ c ∈ x, c.isNaN = false := by
  simp only [HasNaN, not_exists, not_and, Bool.not_eq_true]

/-- **Where a difference of two vectors is a NaN**: a component is one, or both components are the
same infinity. -/
theorem hasNaN_differences_iff {x y : List Float} :
    HasNaN (differences x y) ↔
      ∃ (i : ℕ) (a b : Float), x[i]? = some a ∧ y[i]? = some b ∧
        (a.isNaN = true ∨ b.isNaN = true ∨ a.isInf = true ∧ a = b) := by
  constructor
  · rintro ⟨d, hd, hnan⟩
    obtain ⟨i, hi⟩ := List.mem_iff_getElem?.1 hd
    obtain ⟨a, b, ha, hb, rfl⟩ := getElem?_differences_eq_some.1 hi
    exact ⟨i, a, b, ha, hb, Scalar.isNaN_sub_iff.1 hnan⟩
  · rintro ⟨i, a, b, ha, hb, hnan⟩
    have hi : (differences x y)[i]? = some (a - b) :=
      getElem?_differences_eq_some.2 ⟨a, b, ha, hb, rfl⟩
    exact ⟨a - b, List.mem_of_getElem? hi, Scalar.isNaN_sub_iff.2 hnan⟩

/-! ### Distances -/

namespace NormMode

variable (mode : NormMode) {x y : List Float}

theorem distance_nonneg_of_not_hasNaN (hpos : 0 < x.length) (h : ¬ HasNaN (differences x y)) :
    0 ≤ mode.norm.distance x y :=
  mode.finish_nonneg hpos (mode.fold_nonneg (not_hasNaN_iff.1 h))

/-- **A distance is a NaN exactly if a difference is one.** -/
theorem isNaN_distance_iff (hpos : 0 < x.length) :
    (mode.norm.distance x y).isNaN = true ↔ HasNaN (differences x y) := by
  constructor
  · intro h
    by_contra hnone
    rw [Scalar.isNaN_right_of_le (mode.distance_nonneg_of_not_hasNaN hpos hnone)] at h
    cases h
  · intro h
    exact mode.orderedFinish_norm.isNaN_finish _ _ ((mode.isNaN_fold_iff _).2 h)

/-- No distance is negative. -/
theorem not_distance_lt_zero (hpos : 0 < x.length) : ¬ mode.norm.distance x y < 0 := by
  intro hlt
  have hnone : ¬ HasNaN (differences x y) := by
    rw [← mode.isNaN_distance_iff hpos, Scalar.isNaN_left_of_lt hlt]
    exact Bool.false_ne_true
  have hnonneg := mode.distance_nonneg_of_not_hasNaN hpos hnone
  exact Scalar.lt_irrefl _ (Scalar.lt_of_lt_of_le hlt hnonneg)

/-- **An infinite difference** makes the distance infinite if no difference is a NaN. -/
theorem distance_eq_infinity (hpos : 0 < x.length) (h : ¬ HasNaN (differences x y)) {d : Float}
    (hd : d ∈ differences x y) (hinf : d.isInf = true) :
    mode.norm.distance x y = Scalar.infinity := by
  have hnonneg := mode.fold_nonneg (not_hasNaN_iff.1 h)
  have hfold : mode.norm.fold (differences x y) = Scalar.infinity := by
    refine Scalar.eq_infinity_of_not_lt hnonneg ?_
    exact mode.prunable_norm.ascending.not_fold_lt_infinity mode.rejectsNonFinite_norm hd
      (Scalar.isFinite_of_isInf hinf)
  change mode.norm.finish (mode.norm.fold (differences x y)) x.length = _
  rw [hfold, mode.orderedFinish_norm.finish_infinity _ hpos]

end NormMode

/-! ### Engines -/

namespace Engine

variable (engine : Engine) {x y x₁ x₂ y₁ y₂ : List Float}

theorem distance_of_comparable (h : Comparable x y) :
    engine.distance x y = .ok (engine.norm.distance x y) := by
  simp only [distance, h.checkOperands_eq, norm, NormMode.distance_eq_norm]

theorem jointDistance_of_comparable (hx : Comparable x₁ x₂) (hy : Comparable y₁ y₂) :
    engine.jointDistance x₁ y₁ x₂ y₂ =
      .ok (Scalar.larger (engine.norm.distance x₁ x₂) (engine.norm.distance y₁ y₂)) := by
  simp only [jointDistance, hx.checkOperands_eq, hy.checkOperands_eq, norm,
    NormMode.distance_eq_norm]

/-- **What special values do to a distance.**  An engine has a distance for two vectors that can be
compared.  It is a NaN exactly if a difference is one, which is the case at an index where a
component is a NaN or both components are the same infinity.  If no difference is a NaN but one is
infinite, the distance is infinity.  The distance is never negative and never the negative zero, and
under another configuration it is a NaN for the same vectors. -/
theorem distance_special (h : Comparable x y) :
    ∃ v, engine.distance x y = .ok v ∧
      (v.isNaN = true ↔ HasNaN (differences x y)) ∧
      (v.isNaN = true ↔ ∃ (i : ℕ) (a b : Float), x[i]? = some a ∧ y[i]? = some b ∧
        (a.isNaN = true ∨ b.isNaN = true ∨ a.isInf = true ∧ a = b)) ∧
      (¬ HasNaN (differences x y) → (∃ d ∈ differences x y, d.isInf = true) →
        v = Scalar.infinity) ∧
      ¬ v < 0 ∧ v ≠ -0 ∧
      ∀ (other : Engine) (w : Float), other.distance x y = .ok w → w.isNaN = v.isNaN := by
  have hnan := engine.config.norm.isNaN_distance_iff (y := y) h.length_pos
  refine ⟨_, engine.distance_of_comparable h, hnan, hnan.trans hasNaN_differences_iff, ?_, ?_, ?_,
    ?_⟩
  · rintro hnone ⟨d, hd, hinf⟩
    exact engine.config.norm.distance_eq_infinity h.length_pos hnone hd hinf
  · exact engine.config.norm.not_distance_lt_zero h.length_pos
  · exact engine.config.norm.distance_ne_negative_zero h.length_pos y
  · intro other w hw
    rw [other.distance_of_comparable h] at hw
    rw [← Except.ok.inj hw, Bool.eq_iff_iff]
    exact (other.config.norm.isNaN_distance_iff h.length_pos).trans hnan.symm

/-- Two vectors with the same infinity before other components, and two with one infinity. -/
theorem distance_special_infinite :
    Comparable [Scalar.infinity, 1] [Scalar.infinity, 5] ∧
    Comparable [1, Scalar.infinity] [5, 0] ∧
    (∃ v, distance ⟨.maxNorm, 2000⟩ [Scalar.infinity, 1] [Scalar.infinity, 5] = .ok v ∧
      v.isNaN = true) ∧
    ∃ v, distance ⟨.euclideanNormalised, 2000⟩ [1, Scalar.infinity] [5, 0] = .ok v ∧
      v.isNaN = false ∧ v = Scalar.infinity ∧ ¬ v < 0 := by
  have hsame : Comparable [Scalar.infinity, 1] [Scalar.infinity, 5] := ⟨by decide, by decide⟩
  have hone : Comparable [1, Scalar.infinity] [5, 0] := ⟨by decide, by decide⟩
  obtain ⟨v, hv, -, hnan, -⟩ := distance_special ⟨.maxNorm, 2000⟩ hsame
  obtain ⟨w, hw, -, -, hinf, hneg, -⟩ :=
    distance_special ⟨.euclideanNormalised, 2000⟩ hone
  have hfirst : Scalar.infinity.isInf = true := by decide
  have hnone : ¬ HasNaN (differences [1, Scalar.infinity] [5, 0]) := by decide
  have hinfinity : w = Scalar.infinity := hinf hnone (by decide)
  refine ⟨hsame, hone, ⟨v, hv, hnan.2 ?_⟩, w, hw, ?_, hinfinity, hneg⟩
  · exact ⟨0, Scalar.infinity, Scalar.infinity, rfl, rfl, .inr (.inr ⟨hfirst, rfl⟩)⟩
  · rw [hinfinity, Scalar.isNaN_infinity]

end Engine

end Proximity
