import Proximity.Norm.Basic
import Proximity.Scalar

/-!
# The standard norms

The Euclidean norm, the Euclidean norm per dimension, and the maximum norm.  All three accumulate
by a function that is even in the difference, so the two operands of a distance may be exchanged,
and none of them decreases as components are added.  A NaN component makes the accumulator a NaN
for good.
-/

namespace Proximity

namespace Norm

/-- The square root of the sum of squared differences. -/
def euclidean : Norm where
  mode := .euclidean
  accumulate p d := p + d * d
  finish p _ := p.sqrt

/-- The Euclidean norm divided by the square root of the number of dimensions. -/
def euclideanNormalised : Norm where
  mode := .euclideanNormalised
  accumulate p d := p + d * d
  finish p dims := p.sqrt / (Scalar.ofCount dims).sqrt

/-- The largest absolute difference. -/
def maximum : Norm where
  mode := .maxNorm
  accumulate p d := if d.abs > p || d.abs.isNaN then d.abs else p
  finish p _ := p

end Norm

/-- The norm that a mode names. -/
def NormMode.norm : NormMode → Norm
  | .euclidean => Norm.euclidean
  | .euclideanNormalised => Norm.euclideanNormalised
  | .maxNorm => Norm.maximum

/-- The distance of two vectors under a mode. -/
def NormMode.distance : NormMode → List Float → List Float → Float
  | .euclidean => Norm.euclidean.distance
  | .euclideanNormalised => Norm.euclideanNormalised.distance
  | .maxNorm => Norm.maximum.distance

/-- The distance under a mode is the one of the norm that the mode names. -/
theorem NormMode.distance_eq_norm (mode : NormMode) (a b : List Float) :
    mode.distance a b = mode.norm.distance a b := by
  cases mode <;> rfl

end Proximity
