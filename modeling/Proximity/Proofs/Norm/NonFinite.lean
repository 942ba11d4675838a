import Proximity.Proofs.Binary64.Ordered
import Proximity.Proofs.Norm.Laws

/-!
# Components that are not finite

A NaN or an infinity in one of two rows makes their difference a NaN or an infinity, at whatever
index it stands.  The standard norms make a NaN or infinity out of such a difference, and the
accumulator does not come below infinity again.

* `Scalar.isFinite_sub` : a difference is finite only if its operands are.
* `HasNonFinite` : a vector with a component that is not finite.
* `Norm.RejectsNonFinite` : a difference that is not finite leads to a NaN or infinity.
* `NormMode.not_accumulated_lt_infinity` : **a row with a component that is not finite is at no
  finite distance from any row**, for the standard norms.
-/

namespace Proximity

open Binary64 Float.Model

namespace Scalar

variable {a b : Float}

theorem isFinite_eq_false_iff :
    a.isFinite = false ↔
      a.toModel.unpack = .notANumber ∨ ∃ s, a.toModel.unpack = .infinity s := by
  change a.toModel.unpack.isFinite = false ↔ _
  cases a.toModel.unpack <;> simp [UnpackedFloat.isFinite]

theorem isFinite_of_isNaN (h : a.isNaN = true) : a.isFinite = false :=
  isFinite_eq_false_iff.2 (.inl (isNaN_iff.1 h))

/-- A difference is finite only if its operands are. -/
theorem isFinite_sub (h : a.isFinite = false ∨ b.isFinite = false) : (a - b).isFinite = false := by
  rw [isFinite_eq_false_iff, isFinite_eq_false_iff] at h
  change (a - b).toModel.unpack.isFinite = false
  rw [unpack_sub]
  rcases h with (h | ⟨s, h⟩) | (h | ⟨s, h⟩) <;> rw [h]
  · rfl
  · rcases b.toModel.unpack with ⟨⟨⟩⟩ | _ | _ | _ <;> cases s <;> rfl
  · rcases a.toModel.unpack with _ | _ | _ | _ <;> rfl
  · rcases a.toModel.unpack with ⟨⟨⟩⟩ | _ | _ | _ <;> cases s <;> rfl

theorem square_eq_infinity (h : a.isFinite = false) (ha : a.isNaN = false) :
    a * a = infinity := by
  rcases isFinite_eq_false_iff.1 h with hu | ⟨s, hu⟩
  · exact absurd hu (isNaN_eq_false_iff.1 ha)
  · refine eq_of_unpack_eq ?_
    rw [unpack_square, hu]
    cases s <;> rfl

theorem abs_eq_infinity (h : a.isFinite = false) (ha : a.isNaN = false) : a.abs = infinity := by
  rcases isFinite_eq_false_iff.1 h with hu | ⟨s, hu⟩
  · exact absurd hu (isNaN_eq_false_iff.1 ha)
  · refine eq_of_unpack_eq ?_
    rw [unpack_abs, hu]
    rfl

theorem not_lt_of_isNaN (h : a.isNaN = true) : ¬ a < b := by
  intro hlt
  rw [isNaN_left_of_lt hlt] at h
  cases h

/-- Nothing brings an infinite sum below infinity. -/
theorem not_add_infinity_lt (h : ¬ a < 0) : ¬ a + infinity < infinity := by
  intro hlt
  cases ha : a.isNaN with
  | true => exact not_lt_of_isNaN (isNaN_add (.inl ha)) hlt
  | false =>
    have hsum := isSum_unpack (le_of_not_lt rfl ha h) (show 0 ≤ infinity by decide)
    have hvalue : value (a + infinity) = ⊤ := by
      rw [value, hsum.value_eq, add_comm]
      exact (congrArg fit (top_add_unpackedValue (isNonneg_unpack (le_of_not_lt rfl ha h)))).trans
        fit_top
    have htop := (lt_iff.1 hlt).2.2
    rw [hvalue] at htop
    exact not_top_lt htop

end Scalar

/-! ### The standard norms -/

/-- A difference that is not finite leads to a NaN or infinity. -/
def Norm.RejectsNonFinite (norm : Norm) : Prop :=
  ∀ p d, ¬ p < 0 → d.isFinite = false → ¬ norm.accumulate p d < Scalar.infinity

namespace Norm

variable {norm : Norm}

theorem rejectsNonFinite_of_squares (h : ∀ p d, norm.accumulate p d = p + d * d) :
    norm.RejectsNonFinite := by
  intro p d hp hd
  rw [h]
  cases hnan : d.isNaN with
  | true => exact Scalar.not_lt_of_isNaN (Scalar.isNaN_add (.inr (by rwa [Scalar.isNaN_square])))
  | false =>
    rw [Scalar.square_eq_infinity hd hnan]
    exact Scalar.not_add_infinity_lt hp

theorem rejectsNonFinite_maximum : maximum.RejectsNonFinite := by
  intro p d _ hd
  rcases maximum_accumulate p d with ⟨heq, -⟩ | ⟨heq, hle, hnan⟩ <;> rw [heq]
  · cases hnan : d.isNaN with
    | true => exact Scalar.not_lt_of_isNaN (by rwa [Scalar.isNaN_abs])
    | false =>
      rw [Scalar.abs_eq_infinity hd hnan]
      exact Scalar.lt_irrefl _
  · rwa [Scalar.abs_eq_infinity hd hnan] at hle

theorem Ascending.not_fold_lt_infinity (h : norm.Ascending) (hr : norm.RejectsNonFinite)
    {ds : List Float} {d : Float} (hd : d ∈ ds) (hfinite : d.isFinite = false) :
    ¬ norm.fold ds < Scalar.infinity := by
  obtain ⟨before, after, rfl⟩ := List.append_of_mem hd
  rw [fold, List.foldl_append, List.foldl_cons]
  have hbefore := h.not_fold_lt_zero before
  exact h.not_foldl_lt after (h.not_accumulate_lt hbefore hbefore d) (hr _ _ hbefore hfinite)

end Norm

/-! ### Vectors -/

/-- One of the components is a NaN or an infinity. -/
def HasNonFinite (x : List Float) : Prop := ∃ c ∈ x, c.isFinite = false

instance (x : List Float) : Decidable (HasNonFinite x) :=
  inferInstanceAs (Decidable (∃ c ∈ x, c.isFinite = false))

/-- A component that is not finite shows in the differences. -/
theorem exists_mem_differences {x y : List Float} (hlen : x.length = y.length)
    (h : HasNonFinite x ∨ HasNonFinite y) :
    ∃ d ∈ differences x y, d.isFinite = false := by
  induction x generalizing y with
  | nil =>
    obtain rfl := List.length_eq_zero_iff.1 hlen.symm
    rcases h with ⟨c, hc, -⟩ | ⟨c, hc, -⟩ <;> cases hc
  | cons a x ih =>
    cases y with
    | nil => cases hlen
    | cons b y =>
      by_cases hab : a.isFinite = false ∨ b.isFinite = false
      · exact ⟨a - b, List.mem_cons_self, Scalar.isFinite_sub hab⟩
      · -- the component is not among the first ones
        rw [not_or] at hab
        have hrest : HasNonFinite x ∨ HasNonFinite y := by
          rcases h with ⟨c, hc, hfinite⟩ | ⟨c, hc, hfinite⟩
          · rcases List.mem_cons.1 hc with rfl | hc
            · exact absurd hfinite hab.1
            · exact .inl ⟨c, hc, hfinite⟩
          · rcases List.mem_cons.1 hc with rfl | hc
            · exact absurd hfinite hab.2
            · exact .inr ⟨c, hc, hfinite⟩
        obtain ⟨d, hd, hfinite⟩ := ih (Nat.succ.inj hlen) hrest
        exact ⟨d, List.mem_cons_of_mem _ hd, hfinite⟩

namespace NormMode

theorem rejectsNonFinite_norm (mode : NormMode) : mode.norm.RejectsNonFinite := by
  cases mode with
  | euclidean => exact Norm.rejectsNonFinite_of_squares fun _ _ => rfl
  | euclideanNormalised => exact Norm.rejectsNonFinite_of_squares fun _ _ => rfl
  | maxNorm => exact Norm.rejectsNonFinite_maximum

/-- **A row with a component that is not finite** is at no finite distance from any row. -/
theorem not_accumulated_lt_infinity (mode : NormMode) {x y : List Float}
    (hlen : x.length = y.length) (h : HasNonFinite x ∨ HasNonFinite y) :
    ¬ mode.norm.accumulated x y < Scalar.infinity := by
  obtain ⟨d, hd, hfinite⟩ := exists_mem_differences hlen h
  exact mode.prunable_norm.ascending.not_fold_lt_infinity mode.rejectsNonFinite_norm hd hfinite

end NormMode

end Proximity
