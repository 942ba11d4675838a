import Proximity.Proofs.Norm.Finish
import Proximity.Proofs.Norm.NaN

/-!
# The accumulators of a fold

A search compares the accumulator after some first components with that of another fold, gives the
fold up or goes on with it, and finishes the best accumulator in the end.  This file follows the
accumulators of one fold, component by component, through NaNs, infinities and signed zeros.

* `firstNaN` : where the first NaN stands.
* `Norm.Climbs` : the accumulators go up to the first NaN and are NaNs from there on.
* `Norm.climbs`, `Norm.Monotone.foldl_take_le` : **every lawful norm climbs**, and it keeps the
  order of two accumulators on the way.
* `NormMode.finish_zero` : the standard norms finish zero as zero.
* `NormMode.pruning_laws` : **what the standard norms give to a search that prunes**.
-/

namespace Proximity

/-- The index of the first NaN among some components, and their number if there is none. -/
def firstNaN (ds : List Float) : ℕ := ds.findIdx Float.isNaN

section firstNaN

variable {ds : List Float} {k : ℕ}

/-- There is no NaN before the first one. -/
theorem isNaN_of_mem_take (hk : k ≤ firstNaN ds) {d : Float} (hd : d ∈ ds.take k) :
    d.isNaN = false :=
  List.false_of_mem_take_findIdx ((List.take_sublist_take_left hk).mem hd)

theorem exists_isNaN_mem_take (hfirst : firstNaN ds < k) (hk : k ≤ ds.length) :
    ∃ d ∈ ds.take k, d.isNaN = true := by
  have hlt : firstNaN ds < ds.length := Nat.lt_of_lt_of_le hfirst hk
  have hmem : ds[firstNaN ds] ∈ ds.take k :=
    List.mem_take_iff_getElem.2 ⟨firstNaN ds, Nat.lt_min.2 ⟨hfirst, hlt⟩, rfl⟩
  exact ⟨_, hmem, List.findIdx_getElem⟩

end firstNaN

namespace Norm

/-- The accumulators after the first components `ds.take k` go up to the first NaN and are NaNs from
there on. -/
structure Climbs (norm : Norm) (ds : List Float) : Prop where
  /-- They are not negative. -/
  nonneg : ∀ k ≤ firstNaN ds, 0 ≤ norm.fold (ds.take k)
  /-- They do not decrease. -/
  mono : ∀ j k, j ≤ k → k ≤ firstNaN ds → norm.fold (ds.take j) ≤ norm.fold (ds.take k)
  /-- None of them is the negative zero. -/
  ne_negative_zero : ∀ k, norm.fold (ds.take k) ≠ -0
  /-- A NaN is final. -/
  isNaN : ∀ k ≤ ds.length, firstNaN ds < k → (norm.fold (ds.take k)).isNaN = true

variable {norm : Norm} {ds : List Float} {p q : Float} {k : ℕ}

/-- Two folds over the same components stay in order up to the first NaN. -/
theorem Monotone.foldl_take_le (h : norm.Monotone) (hup : norm.Inflationary) (hp : 0 ≤ p)
    (hpq : p ≤ q) (hk : k ≤ firstNaN ds) :
    (ds.take k).foldl norm.accumulate p ≤ (ds.take k).foldl norm.accumulate q :=
  h.foldl_le_foldl hup (List.Sublist.refl _) (fun _ => isNaN_of_mem_take hk) hp hpq

/-- **The accumulators of a lawful norm climb.** -/
theorem climbs (h : norm.Prunable) (hmono : norm.Monotone) (hnan : norm.DetectsNaN)
    (ds : List Float) : norm.Climbs ds where
  nonneg _ hk := hmono.fold_nonneg h.inflationary fun _ => isNaN_of_mem_take hk
  mono _ _ hjk hk :=
    hmono.foldl_le_foldl h.inflationary (List.take_sublist_take_left hjk)
      (fun _ => isNaN_of_mem_take hk) (Scalar.le_refl rfl) (Scalar.le_refl rfl)
  ne_negative_zero k := h.fold_ne_negative_zero (ds.take k)
  isNaN _ hk hfirst := by
    obtain ⟨d, hmem, hd⟩ := exists_isNaN_mem_take hfirst hk
    exact isNaN_fold_of_mem h.absorbing hnan hmem hd

end Norm

namespace NormMode

variable (mode : NormMode)

theorem finish_zero {dims : ℕ} (hdims : 0 < dims) : mode.norm.finish 0 dims = 0 := by
  cases mode with
  | euclidean => exact Scalar.sqrt_zero
  | euclideanNormalised =>
    change (0 : Float).sqrt / _ = 0
    rw [Scalar.sqrt_zero]
    exact Scalar.zero_div (Scalar.sqrt_ofCount_pos hdims) (Scalar.sqrt_ofCount_lt_infinity hdims)
  | maxNorm => rfl

/-- **What the standard norms give to a search that prunes.**  The accumulators over any two rows go
up to the first NaN among the differences and are NaNs from there on.  Two folds over the same
components stay in order up to the first NaN if they start in order, not below zero.  Over any
positive number of dimensions, finishing keeps the order, zero, infinity and NaNs. -/
theorem pruning_laws :
    (∀ x y : List Float, mode.norm.Climbs (differences x y)) ∧
    (∀ (ds : List Float) (p q : Float), 0 ≤ p → p ≤ q → ∀ k ≤ firstNaN ds,
      (ds.take k).foldl mode.norm.accumulate p ≤ (ds.take k).foldl mode.norm.accumulate q) ∧
    ∀ dims, 0 < dims →
      (∀ p q : Float, 0 ≤ p → p ≤ q → mode.norm.finish p dims ≤ mode.norm.finish q dims) ∧
      mode.norm.finish 0 dims = 0 ∧
      mode.norm.finish Scalar.infinity dims = Scalar.infinity ∧
      ∀ p : Float, p.isNaN = true → (mode.norm.finish p dims).isNaN = true := by
  have hlawful := mode.prunable_norm
  have hfinish := mode.orderedFinish_norm
  refine ⟨fun x y => Norm.climbs hlawful mode.monotone_norm mode.detectsNaN_norm _, ?_, ?_⟩
  · intro ds p q hp hpq k hk
    exact mode.monotone_norm.foldl_take_le hlawful.inflationary hp hpq hk
  · intro dims hdims
    exact ⟨fun p q => hfinish.finish_le dims p q hdims, mode.finish_zero hdims,
      hfinish.finish_infinity dims hdims, hfinish.isNaN_finish dims⟩

/-- The Euclidean norm per dimension of four components, of which the third one is a NaN. -/
theorem pruning_laws_normalised :
    firstNaN (differences [3, 4, 0 / 0, 1] [0, 0, 0, 0]) = 2 ∧
    Norm.euclideanNormalised.fold (differences [3] [0]) ≤
      Norm.euclideanNormalised.fold (differences [3, 4] [0, 0]) ∧
    (Norm.euclideanNormalised.fold (differences [3, 4, 0 / 0] [0, 0, 0])).isNaN = true ∧
    (differences [3, 4] [0, 0]).foldl Norm.euclideanNormalised.accumulate 1 ≤
      (differences [3, 4] [0, 0]).foldl Norm.euclideanNormalised.accumulate 2 ∧
    Norm.euclideanNormalised.finish 9 4 ≤ Norm.euclideanNormalised.finish 25 4 ∧
    (Norm.euclideanNormalised.finish (0 / 0) 4).isNaN = true := by
  have hfirst : firstNaN (differences [3, 4, 0 / 0, 1] [0, 0, 0, 0]) = 2 := by decide
  obtain ⟨hclimbs, hordered, hfinish⟩ := pruning_laws .euclideanNormalised
  obtain ⟨hle, -, -, hnan⟩ := hfinish 4 (by decide)
  have hrows := hclimbs [3, 4, 0 / 0, 1] [0, 0, 0, 0]
  exact ⟨hfirst, hrows.mono 1 2 (by decide) hfirst.ge, hrows.isNaN 3 (by decide) (by decide),
    hordered (differences [3, 4, 0 / 0, 1] [0, 0, 0, 0]) 1 2 (by decide) (by decide) 2 hfirst.ge,
    hle 9 25 (by decide) (by decide), hnan (0 / 0) (by decide)⟩

end NormMode

end Proximity
