import Proximity.Norm.Standard
import Proximity.Proofs.Binary64.Arithmetic

/-!
# The laws that searching relies on

A search compares accumulators that are not complete with bounds.  This file names what a norm has
to promise for that to be sound, and shows that the standard norms promise it.

* `Norm.Inflationary`, `Norm.NaNAbsorbing`, `Norm.AvoidsNegativeZero` : what one component can do
  to an accumulator.  The first two are `Norm.Ascending`, and together they are `Norm.Prunable`.
* `Norm.SwapEven` : the two operands of a distance may be exchanged.
* `Norm.Ascending.not_foldl_lt` : **an accumulator that is not below a bound never comes below it
  again**.
* `Norm.Prunable.admissible_foldl` : what the accumulators of a fold can be.
* `Norm.sticky` : a norm stopped at its first NaN.  It absorbs NaNs, and a norm that is otherwise
  lawful becomes lawful by it.
* `NormMode.prunable_norm`, `NormMode.swapEven_norm` : the standard norms satisfy every law.
-/

namespace Proximity

/-- A fold that keeps its state or takes the value of the next element ends where it started or at
the value of an element. -/
theorem foldl_eq_or_exists {α β : Type} {f : β → α → β} {g : α → β}
    (h : ∀ b a, f b a = b ∨ f b a = g a) (l : List α) (b : β) :
    l.foldl f b = b ∨ ∃ a ∈ l, l.foldl f b = g a := by
  induction l generalizing b with
  | nil => exact .inl rfl
  | cons a l ih =>
    rw [List.foldl_cons]
    rcases ih (f b a) with hkept | ⟨c, hc, htaken⟩
    · rw [hkept]
      exact (h b a).imp_right fun ha => ⟨a, List.mem_cons_self, ha⟩
    · exact .inr ⟨c, List.mem_cons_of_mem a hc, htaken⟩

namespace Norm

/-! ### The laws -/

section Laws

variable (norm : Norm)

/-- A component does not decrease an accumulator that is not negative, or it makes it a NaN. -/
def Inflationary : Prop :=
  ∀ p d, 0 ≤ p → (norm.accumulate p d).isNaN = true ∨ p ≤ norm.accumulate p d

/-- An accumulator that is a NaN stays one. -/
def NaNAbsorbing : Prop := ∀ p d, p.isNaN = true → (norm.accumulate p d).isNaN = true

/-- No component makes the negative zero out of another accumulator that is not negative. -/
def AvoidsNegativeZero : Prop := ∀ p d, 0 ≤ p → p ≠ -0 → norm.accumulate p d ≠ -0

/-- The operands of a difference may be exchanged. -/
def SwapEven : Prop := ∀ p x y, norm.accumulate p (x - y) = norm.accumulate p (y - x)

/-- Accumulators only go up, or become a NaN for good. -/
structure Ascending : Prop where
  /-- Accumulators do not decrease. -/
  inflationary : norm.Inflationary
  /-- A NaN is final. -/
  absorbing : norm.NaNAbsorbing

/-- A fold may be abandoned at a bound. -/
structure Prunable : Prop where
  /-- Accumulators do not decrease. -/
  inflationary : norm.Inflationary
  /-- A NaN is final. -/
  absorbing : norm.NaNAbsorbing
  /-- The zero of an accumulator is the positive one. -/
  avoids : norm.AvoidsNegativeZero

end Laws

/-! ### The accumulators of a fold -/

/-- The accumulator over the given component differences. -/
def fold (norm : Norm) (ds : List Float) : Float := ds.foldl norm.accumulate 0

/-- What the accumulator of a fold can be: a NaN, or a number that is not negative and not the
negative zero. -/
def Admissible (p : Float) : Prop := p.isNaN = true ∨ 0 ≤ p ∧ p ≠ -0

theorem ne_negative_zero_of_isNaN {p : Float} (h : p.isNaN = true) : p ≠ -0 := by
  rintro rfl
  revert h
  decide

theorem admissible_zero : Admissible 0 := .inr (by decide)

variable {norm : Norm}

theorem Prunable.admissible_accumulate (h : norm.Prunable) {p : Float} (hp : Admissible p)
    (d : Float) : Admissible (norm.accumulate p d) := by
  rcases hp with hnan | ⟨hnonneg, hzero⟩
  · exact .inl (h.absorbing p d hnan)
  · rcases h.inflationary p d hnonneg with hnan | hle
    · exact .inl hnan
    · exact .inr ⟨Scalar.le_trans hnonneg hle, h.avoids p d hnonneg hzero⟩

theorem Prunable.admissible_foldl (h : norm.Prunable) (ds : List Float) {p : Float}
    (hp : Admissible p) : Admissible (ds.foldl norm.accumulate p) := by
  induction ds generalizing p with
  | nil => exact hp
  | cons d ds ih => exact ih (h.admissible_accumulate hp d)

theorem Prunable.ascending (h : norm.Prunable) : norm.Ascending := ⟨h.inflationary, h.absorbing⟩

/-- One component leads to a NaN, or not below the accumulator. -/
theorem Ascending.not_accumulate_lt (h : norm.Ascending) {p bound : Float} (hp : ¬ p < 0)
    (hbound : ¬ p < bound) (d : Float) : ¬ norm.accumulate p d < bound := by
  intro hlt
  by_cases hnan : p.isNaN = true
  · have := h.absorbing p d hnan
    rw [Scalar.isNaN_left_of_lt hlt] at this
    cases this
  · rw [Bool.not_eq_true] at hnan
    rcases h.inflationary p d (Scalar.le_of_not_lt rfl hnan hp) with hnan | hle
    · rw [Scalar.isNaN_left_of_lt hlt] at hnan
      cases hnan
    · exact hbound (Scalar.lt_of_le_of_lt hle hlt)

/-- **A fold that is not below a bound never comes below it.** -/
theorem Ascending.not_foldl_lt (h : norm.Ascending) (ds : List Float) {p bound : Float}
    (hp : ¬ p < 0) (hbound : ¬ p < bound) : ¬ ds.foldl norm.accumulate p < bound := by
  induction ds generalizing p with
  | nil => exact hbound
  | cons d ds ih => exact ih (h.not_accumulate_lt hp hp d) (h.not_accumulate_lt hp hbound d)

/-- No accumulator of a fold is negative. -/
theorem Ascending.not_fold_lt_zero (h : norm.Ascending) (ds : List Float) : ¬ norm.fold ds < 0 :=
  h.not_foldl_lt ds (Scalar.lt_irrefl 0) (Scalar.lt_irrefl 0)

theorem Prunable.fold_ne_negative_zero (h : norm.Prunable) (ds : List Float) :
    norm.fold ds ≠ -0 := by
  rcases h.admissible_foldl ds admissible_zero with hnan | ⟨-, hzero⟩
  · exact ne_negative_zero_of_isNaN hnan
  · exact hzero

/-- Two differences of the same operands, taken in either order. -/
def Reoriented (d e : Float) : Prop := ∃ x y : Float, d = x - y ∧ (e = x - y ∨ e = y - x)

/-- The order of the operands of each difference does not matter to a fold. -/
theorem SwapEven.foldl_congr (h : norm.SwapEven) {ds es : List Float}
    (hds : List.Forall₂ Reoriented ds es) (p : Float) :
    ds.foldl norm.accumulate p = es.foldl norm.accumulate p := by
  induction hds generalizing p with
  | nil => rfl
  | cons hd _ ih =>
    obtain ⟨x, y, rfl, rfl | rfl⟩ := hd
    · exact ih _
    · rw [List.foldl_cons, List.foldl_cons, h p x y]
      exact ih _

/-! ### Stopping at the first NaN -/

/-- The norm that lets an accumulator be once it is a NaN. -/
def sticky (norm : Norm) : Norm where
  mode := norm.mode
  accumulate p d := if p.isNaN then p else norm.accumulate p d
  finish := norm.finish

theorem sticky_accumulate {p : Float} (h : p.isNaN = false) (d : Float) :
    norm.sticky.accumulate p d = norm.accumulate p d := by
  simp only [sticky, h, Bool.false_eq_true, ↓reduceIte]

theorem sticky_accumulate_nan {p : Float} (h : p.isNaN = true) (d : Float) :
    norm.sticky.accumulate p d = p := by
  simp only [sticky, h, ↓reduceIte]

theorem SwapEven.sticky (h : norm.SwapEven) : norm.sticky.SwapEven := by
  intro p x y
  by_cases hp : p.isNaN = true
  · rw [sticky_accumulate_nan hp, sticky_accumulate_nan hp]
  · rw [Bool.not_eq_true] at hp
    rw [sticky_accumulate hp, sticky_accumulate hp, h p x y]

theorem ascending_sticky (hi : norm.Inflationary) : norm.sticky.Ascending where
  inflationary p d hp := by
    rw [sticky_accumulate (Scalar.isNaN_right_of_le hp)]
    exact hi p d hp
  absorbing p d hp := by rwa [sticky_accumulate_nan hp]

/-- A norm that keeps the other laws may be stopped at its first NaN. -/
theorem prunable_sticky (hi : norm.Inflationary) (hz : norm.AvoidsNegativeZero) :
    norm.sticky.Prunable where
  inflationary := (ascending_sticky hi).inflationary
  absorbing := (ascending_sticky hi).absorbing
  avoids p d hp hp₀ := by
    rw [sticky_accumulate (Scalar.isNaN_right_of_le hp)]
    exact hz p d hp hp₀

end Norm

/-! ### Lawful norms -/

namespace Norm

variable {norm : Norm}

/-- A norm is lawful if a component leaves the accumulator alone, or adds something that is not
negative. -/
theorem prunable_of_steps (h : ∀ p d, norm.accumulate p d = p ∨
    ∃ e, norm.accumulate p d = p + e ∧ (e.isNaN = true ∨ 0 ≤ e)) : norm.Prunable where
  inflationary p d hp := by
    rcases h p d with heq | ⟨e, heq, hnan | he⟩ <;> rw [heq]
    · exact .inr (Scalar.le_refl (Scalar.isNaN_right_of_le hp))
    · exact .inl (Scalar.isNaN_add (.inr hnan))
    · exact .inr (Scalar.le_add hp he)
  absorbing p d hp := by
    rcases h p d with heq | ⟨e, heq, -⟩ <;> rw [heq]
    · exact hp
    · exact Scalar.isNaN_add (.inl hp)
  avoids p d hp hp₀ := by
    rcases h p d with heq | ⟨e, heq, hnan | he⟩ <;> rw [heq]
    · exact hp₀
    · exact ne_negative_zero_of_isNaN (Scalar.isNaN_add (.inr hnan))
    · exact Scalar.add_ne_negative_zero hp he hp₀

/-- Adding squares is lawful. -/
theorem prunable_of_squares (h : ∀ p d, norm.accumulate p d = p + d * d) : norm.Prunable := by
  refine prunable_of_steps fun p d => .inr ⟨d * d, h p d, ?_⟩
  rw [Scalar.isNaN_square]
  cases hd : d.isNaN with
  | true => exact .inl rfl
  | false => exact .inr (Scalar.square_nonneg hd)

theorem swapEven_of_squares (h : ∀ p d, norm.accumulate p d = p + d * d) : norm.SwapEven := by
  intro p x y
  rw [h, h, Scalar.square_sub_comm]

/-- A component either replaces the largest absolute difference or leaves it. -/
theorem maximum_accumulate (p d : Float) :
    maximum.accumulate p d = d.abs ∧ (p < d.abs ∨ d.isNaN = true) ∨
      maximum.accumulate p d = p ∧ ¬ p < d.abs ∧ d.isNaN = false := by
  by_cases hc : (decide (d.abs > p) || d.abs.isNaN) = true
  · refine .inl ⟨if_pos hc, ?_⟩
    rw [Bool.or_eq_true, decide_eq_true_eq, Scalar.isNaN_abs] at hc
    exact hc
  · refine .inr ⟨if_neg hc, ?_⟩
    rw [Bool.or_eq_true, not_or, Scalar.isNaN_abs, decide_eq_true_eq] at hc
    exact ⟨hc.1, Bool.not_eq_true _ ▸ hc.2⟩

theorem prunable_maximum : maximum.Prunable where
  inflationary p d hp := by
    rcases maximum_accumulate p d with ⟨heq, hlt | hnan⟩ | ⟨heq, -⟩ <;> rw [heq]
    · exact .inr (Scalar.le_of_lt hlt)
    · exact .inl (by rwa [Scalar.isNaN_abs])
    · exact .inr (Scalar.le_refl (Scalar.isNaN_right_of_le hp))
  absorbing p d hp := by
    rcases maximum_accumulate p d with ⟨heq, hlt | hnan⟩ | ⟨heq, -⟩ <;> rw [heq]
    · rw [Scalar.isNaN_left_of_lt hlt] at hp
      cases hp
    · rwa [Scalar.isNaN_abs]
    · exact hp
  avoids p d _ hp₀ := by
    rcases maximum_accumulate p d with ⟨heq, -⟩ | ⟨heq, -⟩ <;> rw [heq]
    · exact Scalar.abs_ne_negative_zero d
    · exact hp₀

theorem swapEven_maximum : maximum.SwapEven := by
  intro p x y
  simp only [maximum, Scalar.abs_sub_comm x y]

end Norm

namespace NormMode

/-- **The standard norms may be pruned.** -/
theorem prunable_norm (mode : NormMode) : mode.norm.Prunable := by
  cases mode with
  | euclidean => exact Norm.prunable_of_squares fun _ _ => rfl
  | euclideanNormalised => exact Norm.prunable_of_squares fun _ _ => rfl
  | maxNorm => exact Norm.prunable_maximum

/-- **The standard norms do not look at the order of their operands.** -/
theorem swapEven_norm (mode : NormMode) : mode.norm.SwapEven := by
  cases mode with
  | euclidean => exact Norm.swapEven_of_squares fun _ _ => rfl
  | euclideanNormalised => exact Norm.swapEven_of_squares fun _ _ => rfl
  | maxNorm => exact Norm.swapEven_maximum

end NormMode

end Proximity
