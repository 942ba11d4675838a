import Proximity.Norm.Basic

/-!
# Partial distances

The fold of the component differences of two rows can be abandoned as soon as its accumulator
reaches a bound, because it can then no longer win.  A `PartialDistance` is where such a fold
stands: the accumulator, and the number of components in it.  It can be resumed later, against
another bound, and also with the two rows exchanged.

## Main definitions

* `PartialDistance.start` : nothing folded yet.
* `PartialDistance.resume` : folds further components while the accumulator is below the bound.
-/

namespace Proximity

/-- An accumulator and the number of components folded into it. -/
structure PartialDistance where
  /-- The accumulator. -/
  value : Float
  /-- The number of components folded so far. -/
  progress : Nat
  deriving DecidableEq, Repr

namespace PartialDistance

/-- Nothing folded yet. -/
def start : PartialDistance := ⟨0, 0⟩

/-- Folds the differences of the components in `xs` and `ys` while the accumulator is below the
bound. -/
def extend (norm : Norm) (bound : Float) :
    PartialDistance → List Float → List Float → PartialDistance
  | cell, x :: xs, y :: ys =>
    if cell.value < bound then
      extend norm bound ⟨norm.accumulate cell.value (x - y), cell.progress + 1⟩ xs ys
    else cell
  | cell, _, _ => cell

/-- Goes on with the fold over the rows `x` and `y`, from the first component that is not yet
folded, while the accumulator is below the bound. -/
def resume (norm : Norm) (x y : List Float) (bound : Float) (cell : PartialDistance) :
    PartialDistance :=
  cell.extend norm bound (x.drop cell.progress) (y.drop cell.progress)

variable {norm : Norm} {bound : Float} {cell : PartialDistance}

/-- A fold whose accumulator is not below the bound stays where it is. -/
theorem extend_of_not_lt (xs ys : List Float) (h : ¬ cell.value < bound) :
    cell.extend norm bound xs ys = cell := by
  cases xs with
  | nil => rfl
  | cons x xs =>
    cases ys with
    | nil => rfl
    | cons y ys => simp only [extend, h, ↓reduceIte]

/-- A fold only goes forward. -/
theorem progress_le_extend (xs ys : List Float) :
    cell.progress ≤ (cell.extend norm bound xs ys).progress := by
  induction xs generalizing ys cell with
  | nil => exact Nat.le_refl _
  | cons x xs ih =>
    cases ys with
    | nil => exact Nat.le_refl _
    | cons y ys =>
      by_cases h : cell.value < bound
      · simp only [extend, h, ↓reduceIte]
        let next : PartialDistance := ⟨norm.accumulate cell.value (x - y), cell.progress + 1⟩
        have hnext : next.progress ≤ (next.extend norm bound xs ys).progress := ih ys
        exact Nat.le_trans (Nat.le_succ _) hnext
      · simp only [extend, h, ↓reduceIte, Nat.le_refl]

end PartialDistance

end Proximity
