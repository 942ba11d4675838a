import Proximity.Norm.Mode

/-!
# Norms

A norm is computed in two stages.  The component differences of two vectors are folded one by one
into an *accumulator*, starting from zero, and the finished accumulator is turned into a distance.
Comparing accumulators is enough to compare distances, so a search folds and compares first and
finishes only the winner.

## Main definitions

* `Norm` : the two stages, and the mode under which the norm reports itself.
* `Norm.accumulated` : the accumulator over all components of two vectors.
* `Norm.distance` : the distance of two vectors.
-/

namespace Proximity

/-- A norm on component differences. -/
structure Norm where
  /-- The mode under which the norm reports itself. -/
  mode : NormMode
  /-- Adds one component difference to an accumulator. -/
  accumulate : Float → Float → Float
  /-- The distance that belongs to an accumulator over the given number of dimensions. -/
  finish : Float → Nat → Float

/-- The component differences of two vectors, in index order. -/
def differences (a b : List Float) : List Float := List.zipWith (· - ·) a b

theorem getElem?_differences_eq_some {x y : List Float} {i : Nat} {d : Float} :
    (differences x y)[i]? = some d ↔ ∃ a b, x[i]? = some a ∧ y[i]? = some b ∧ a - b = d :=
  List.getElem?_zipWith_eq_some

namespace Norm

variable (norm : Norm)

/-- The accumulator over all components of two vectors. -/
def accumulated (a b : List Float) : Float := (differences a b).foldl norm.accumulate 0

/-- The distance of two vectors. -/
def distance (a b : List Float) : Float := norm.finish (norm.accumulated a b) a.length

end Norm

end Proximity
