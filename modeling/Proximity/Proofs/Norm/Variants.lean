import Proximity.Norm.Variants
import Proximity.Proofs.Norm.Laws

/-!
# The laws of the further norms

All further norms may be pruned: most of them add something that is not negative, or leave the
accumulator alone.  Those that look at the absolute value of a difference, or at its square, do not
look at the order of its operands; the one-sided measures do.

* `Norm.twoSided`, `Norm.oneSided` : the norms that do not look at the sign of a difference, and
  those that do.
* `Norm.prunable_of_abs`, `Norm.swapEven_of_abs` : norms that look at absolute values.
* `Norm.further_laws` : **which laws the further norms satisfy**.
-/

namespace Proximity

namespace Norm

variable {norm : Norm}

/-! ### Pruning -/

/-- Adding absolute values is lawful. -/
theorem prunable_of_abs (h : ∀ p d, norm.accumulate p d = p + d.abs) : norm.Prunable := by
  refine prunable_of_steps fun p d => .inr ⟨d.abs, h p d, ?_⟩
  rw [Scalar.isNaN_abs]
  cases hd : d.isNaN with
  | true => exact .inl rfl
  | false => exact .inr (Scalar.abs_nonneg hd)

theorem prunable_taxicab : taxicab.Prunable := prunable_of_abs fun _ _ => rfl

theorem prunable_meanAbsolute : meanAbsolute.Prunable := prunable_of_abs fun _ _ => rfl

theorem prunable_similarity : similarity.Prunable := prunable_of_squares fun _ _ => rfl

theorem prunable_hamming : hamming.Prunable := by
  refine prunable_of_steps fun p d => ?_
  by_cases hd : (d != 0) = true
  · exact .inr ⟨1, if_pos hd, .inr (by decide)⟩
  · exact .inl (if_neg hd)

/-- The one-sided sum of excesses may be pruned, although its operands may not be exchanged. -/
theorem prunable_excess : excess.Prunable := by
  refine prunable_of_steps fun p d => ?_
  by_cases hd : d > 0
  · exact .inr ⟨d, if_pos hd, .inr (Scalar.le_of_lt hd)⟩
  · exact .inl (if_neg hd)

theorem accumulate_maxDrop_of_lt {p d : Float} (h : p < d) : maxDrop.accumulate p d = d := if_pos h

theorem accumulate_maxDrop_of_not_lt {p d : Float} (h : ¬ p < d) : maxDrop.accumulate p d = p :=
  if_neg h

/-- So may the largest drop, which replaces the accumulator instead of adding to it. -/
theorem prunable_maxDrop : maxDrop.Prunable where
  inflationary p d hp := by
    by_cases hd : p < d
    · rw [accumulate_maxDrop_of_lt hd]
      exact .inr (Scalar.le_of_lt hd)
    · rw [accumulate_maxDrop_of_not_lt hd]
      exact .inr (Scalar.le_refl (Scalar.isNaN_right_of_le hp))
  absorbing p d hp := by
    have hd : ¬ p < d := fun hd => by
      rw [Scalar.isNaN_left_of_lt hd] at hp
      cases hp
    rwa [accumulate_maxDrop_of_not_lt hd]
  avoids p d hp hp₀ := by
    by_cases hd : p < d
    · rw [accumulate_maxDrop_of_lt hd]
      rintro rfl
      exact absurd (Scalar.lt_of_le_of_lt hp hd) (by decide)
    · rwa [accumulate_maxDrop_of_not_lt hd]

/-! ### The order of the operands -/

/-- A norm that only looks at absolute values does not look at the order of operands. -/
theorem swapEven_of_abs (h : ∀ p d e : Float, d.abs = e.abs →
    norm.accumulate p d = norm.accumulate p e) : norm.SwapEven :=
  fun p x y => h p _ _ (Scalar.abs_sub_comm x y)

theorem swapEven_taxicab : taxicab.SwapEven :=
  swapEven_of_abs fun p _ _ hde => congrArg (p + ·) hde

theorem swapEven_meanAbsolute : meanAbsolute.SwapEven :=
  swapEven_of_abs fun p _ _ hde => congrArg (p + ·) hde

theorem swapEven_similarity : similarity.SwapEven := swapEven_of_squares fun _ _ => rfl

theorem swapEven_hamming : hamming.SwapEven := by
  refine swapEven_of_abs fun p d e hde => ?_
  have hzero : (d == 0) = (e == 0) := by rw [← Scalar.abs_beq_zero, hde, Scalar.abs_beq_zero]
  simp only [hamming, bne, hzero]

theorem not_swapEven_excess : ¬ excess.SwapEven :=
  fun h => absurd (h 0 1 0) (by decide)

theorem not_swapEven_maxDrop : ¬ maxDrop.SwapEven :=
  fun h => absurd (h 0 1 0) (by decide)

/-! ### All of them -/

/-- The further norms that do not look at the sign of a difference. -/
def twoSided : List Norm := [taxicab, meanAbsolute, hamming, similarity]

/-- The further norms that do. -/
def oneSided : List Norm := [excess, maxDrop]

theorem swapEven_of_mem_twoSided (h : norm ∈ twoSided) : norm.SwapEven := by
  simp only [twoSided, List.mem_cons, List.not_mem_nil, or_false] at h
  rcases h with rfl | rfl | rfl | rfl
  · exact swapEven_taxicab
  · exact swapEven_meanAbsolute
  · exact swapEven_hamming
  · exact swapEven_similarity

theorem not_swapEven_of_mem_oneSided (h : norm ∈ oneSided) : ¬ norm.SwapEven := by
  rcases List.mem_pair.1 h with rfl | rfl
  · exact not_swapEven_excess
  · exact not_swapEven_maxDrop

theorem prunable_of_mem (h : norm ∈ twoSided ++ oneSided) : norm.Prunable := by
  simp only [twoSided, oneSided, List.cons_append, List.nil_append, List.mem_cons,
    List.not_mem_nil, or_false] at h
  rcases h with rfl | rfl | rfl | rfl | rfl | rfl
  · exact prunable_taxicab
  · exact prunable_meanAbsolute
  · exact prunable_hamming
  · exact prunable_similarity
  · exact prunable_excess
  · exact prunable_maxDrop

/-- **Which laws the further norms satisfy:** all may be pruned, and the operands may be exchanged
exactly in those that do not look at the sign of a difference. -/
theorem further_laws (h : norm ∈ twoSided ++ oneSided) :
    norm.Prunable ∧ (norm.SwapEven ↔ norm ∈ twoSided) := by
  refine ⟨prunable_of_mem h, fun heven => ?_, swapEven_of_mem_twoSided⟩
  rcases List.mem_append.1 h with htwo | hone
  · exact htwo
  · exact absurd heven (not_swapEven_of_mem_oneSided hone)

end Norm

end Proximity
