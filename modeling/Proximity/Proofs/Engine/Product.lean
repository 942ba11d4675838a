import Proximity.Proofs.Binary64.Larger
import Proximity.Proofs.Engine.Distance
import Proximity.Proofs.Norm.Largest
import Proximity.Proofs.Norm.Orientation

/-!
# Distances in a product space

The distance of two points of a product space is the larger of the distances in the two spaces.
Under the maximum norm it is the distance of the joined vectors, since the fold over the joined
differences goes on from the first accumulator just as taking the larger of two numbers does.  The
two differ on NaNs: a fold keeps one, and the larger of two numbers gives it up for the other one.

* `Norm.fold_maximum_append`, `Norm.distance_maximum_append` : **the maximum norm of joined
  vectors**.
* `Engine.jointDistance_product` : **what the distance in a product space is**.
-/

namespace Proximity

/-! ### Joined vectors -/

theorem differences_append {x₁ x₂ y₁ y₂ : List Float} (h : x₁.length = x₂.length) :
    differences (x₁ ++ y₁) (x₂ ++ y₂) = differences x₁ x₂ ++ differences y₁ y₂ :=
  List.zipWith_append h

theorem Comparable.append {x₁ x₂ y₁ y₂ : List Float} (hx : Comparable x₁ x₂)
    (hy : y₁.length = y₂.length) : Comparable (x₁ ++ y₁) (x₂ ++ y₂) where
  length_pos := by
    rw [List.length_append]
    exact Nat.add_pos_left hx.length_pos _
  length_eq := by rw [List.length_append, List.length_append, hx.length_eq, hy]

namespace Norm

variable {ds es : List Float} {p q d : Float}

/-- A component is taken by taking the larger one of its absolute value and the accumulator. -/
theorem maximum_accumulate_eq_larger (hp : p.isNaN = false) (hd : d.isNaN = false) :
    maximum.accumulate p d = Scalar.larger p d.abs := by
  rcases maximum_accumulate p d with ⟨heq, hlt | hnan⟩ | ⟨heq, hle, -⟩
  · rw [heq, Scalar.larger_of_lt hlt]
  · rw [hd] at hnan
    cases hnan
  · rw [heq, Scalar.larger_of_not_lt hp hle]

/-- A fold that starts from the larger of two accumulators. -/
theorem foldl_maximum_larger (hp : p.isNaN = false) (hq : q.isNaN = false)
    (hds : ∀ d ∈ ds, d.isNaN = false) :
    ds.foldl maximum.accumulate (Scalar.larger p q) =
      Scalar.larger p (ds.foldl maximum.accumulate q) := by
  induction ds generalizing q with
  | nil => rfl
  | cons d ds ih =>
    obtain ⟨hd, hds⟩ := List.forall_mem_cons.1 hds
    have hnext := Scalar.isNaN_larger_of_left (b := d.abs) hq
    rw [List.foldl_cons, List.foldl_cons,
      maximum_accumulate_eq_larger (Scalar.isNaN_larger_of_left hp) hd,
      maximum_accumulate_eq_larger hq hd,
      Scalar.larger_assoc hp hq (by rwa [Scalar.isNaN_abs]), ih hnext hds]

/-- **The maximum norm of joined vectors** is the larger of the two maximum norms. -/
theorem fold_maximum_append (hds : ∀ d ∈ ds, d.isNaN = false) (hes : ∀ d ∈ es, d.isNaN = false) :
    maximum.fold (ds ++ es) = Scalar.larger (maximum.fold ds) (maximum.fold es) := by
  have hnan : (maximum.fold ds).isNaN = false :=
    Scalar.isNaN_right_of_le (NormMode.maxNorm.fold_nonneg hds)
  have hzero : Scalar.larger (maximum.fold ds) 0 = maximum.fold ds :=
    Scalar.larger_of_not_lt hnan (prunable_maximum.ascending.not_fold_lt_zero ds)
  rw [fold, List.foldl_append, fold.eq_def maximum es, ← foldl_maximum_larger hnan rfl hes, hzero]
  rfl

theorem distance_maximum_append {x₁ x₂ y₁ y₂ : List Float} (hlen : x₁.length = x₂.length)
    (h : ¬ HasNaN (differences (x₁ ++ y₁) (x₂ ++ y₂))) :
    maximum.distance (x₁ ++ y₁) (x₂ ++ y₂) =
      Scalar.larger (maximum.distance x₁ x₂) (maximum.distance y₁ y₂) := by
  rw [differences_append hlen, not_hasNaN_iff, List.forall_mem_append] at h
  change maximum.fold (differences (x₁ ++ y₁) (x₂ ++ y₂)) = _
  rw [differences_append hlen, fold_maximum_append h.1 h.2]
  rfl

end Norm

/-! ### Engines -/

namespace Engine

variable (engine : Engine) {x₁ x₂ y₁ y₂ : List Float}

/-- **The distance in a product space.**  An engine has a distance for two points of a product space
if the components can be compared in both spaces.  Under the maximum norm, and without a NaN among
the differences, it is the distance of the joined vectors.  Under every norm, a NaN in one space
only leaves the distance in the other space, and NaNs in both spaces make the distance a NaN.
Neither the order of the two points nor that of the two spaces matters. -/
theorem jointDistance_product (hx : Comparable x₁ x₂) (hy : Comparable y₁ y₂) :
    ∃ v vx vy, engine.jointDistance x₁ y₁ x₂ y₂ = .ok v ∧
      engine.distance x₁ x₂ = .ok vx ∧ engine.distance y₁ y₂ = .ok vy ∧
      (engine.config.norm = .maxNorm → ¬ HasNaN (differences (x₁ ++ y₁) (x₂ ++ y₂)) →
        engine.distance (x₁ ++ y₁) (x₂ ++ y₂) = .ok v) ∧
      (HasNaN (differences x₁ x₂) → ¬ HasNaN (differences y₁ y₂) → v = vy) ∧
      (¬ HasNaN (differences x₁ x₂) → HasNaN (differences y₁ y₂) → v = vx) ∧
      (v.isNaN = true ↔ HasNaN (differences x₁ x₂) ∧ HasNaN (differences y₁ y₂)) ∧
      engine.jointDistance x₂ y₂ x₁ y₁ = .ok v ∧
      engine.jointDistance y₁ x₁ y₂ x₂ = .ok v := by
  have hnx := engine.config.norm.isNaN_distance_iff (y := x₂) hx.length_pos
  have hny := engine.config.norm.isNaN_distance_iff (y := y₂) hy.length_pos
  refine ⟨_, _, _, engine.jointDistance_of_comparable hx hy, engine.distance_of_comparable hx,
    engine.distance_of_comparable hy, ?_, ?_, ?_, ?_, ?_, ?_⟩
  · intro hmode hnone
    have hjoined := hx.append hy.length_eq
    rw [engine.distance_of_comparable hjoined, norm, hmode]
    exact congrArg Except.ok (Norm.distance_maximum_append hx.length_eq hnone)
  · intro hnan _
    exact Scalar.larger_of_isNaN_left (hnx.2 hnan)
  · intro _ hnan
    exact Scalar.larger_of_isNaN_right (hny.2 hnan)
  · exact Scalar.isNaN_larger_iff.trans (and_congr hnx hny)
  · rw [engine.jointDistance_of_comparable hx.symm hy.symm, norm,
      engine.config.norm.distance_comm hx.length_eq, engine.config.norm.distance_comm hy.length_eq]
  · rw [engine.jointDistance_of_comparable hy hx]
    have hx₀ : engine.norm.distance x₁ x₂ ≠ -0 :=
      engine.config.norm.distance_ne_negative_zero hx.length_pos x₂
    have hy₀ : engine.norm.distance y₁ y₂ ≠ -0 :=
      engine.config.norm.distance_ne_negative_zero hy.length_pos y₂
    rw [Scalar.larger_comm hy₀ hx₀]

/-- Two points under the maximum norm, and two points with a NaN in the first space. -/
theorem jointDistance_product_dims :
    Comparable [0] [3] ∧ Comparable [0, 0] [4, 1] ∧ Comparable [0 / 0] [3] ∧
    (∃ v, jointDistance ⟨.maxNorm, 2000⟩ [0] [0, 0] [3] [4, 1] = .ok v ∧
      distance ⟨.maxNorm, 2000⟩ [0, 0, 0] [3, 4, 1] = .ok v ∧
      jointDistance ⟨.maxNorm, 2000⟩ [0, 0] [0] [4, 1] [3] = .ok v) ∧
    ∃ v, jointDistance ⟨.euclidean, 2000⟩ [0 / 0] [0, 0] [3] [4, 1] = .ok v ∧
      distance ⟨.euclidean, 2000⟩ [0, 0] [4, 1] = .ok v ∧ v.isNaN = false := by
  have hx : Comparable [0] [3] := ⟨by decide, by decide⟩
  have hy : Comparable [0, 0] [4, 1] := ⟨by decide, by decide⟩
  have hnan : Comparable [0 / 0] [3] := ⟨by decide, by decide⟩
  have hfirst : HasNaN (differences [0 / 0] [3]) := by decide
  have hsecond : ¬ HasNaN (differences [0, 0] [4, 1]) := by decide
  obtain ⟨v, -, -, hv, -, -, hjoined, -, -, -, -, hspaces⟩ :=
    jointDistance_product ⟨.maxNorm, 2000⟩ hx hy
  obtain ⟨w, -, wy, hw, -, hwy, -, hother, -, hboth, -⟩ :=
    jointDistance_product ⟨.euclidean, 2000⟩ hnan hy
  obtain rfl := hother hfirst hsecond
  refine ⟨hx, hy, hnan, ⟨v, hv, hjoined rfl (by decide), hspaces⟩, w, hw, hwy, ?_⟩
  rw [← Bool.not_eq_true, hboth]
  exact fun h => hsecond h.2

end Engine

end Proximity
