import Proximity.Norm.Basic
import Proximity.Scalar

/-!
# Further norms

The searches and the tables take any `Norm`.  The ones below are additive norms, a count of
differing components, two one-sided measures that look at the sign of a difference, and a
similarity that decreases as the difference grows.  The one-sided measures depend on the order of
their operands.  Each reports itself under the maximum norm.
-/

namespace Proximity

namespace Norm

/-- The sum of absolute differences. -/
def taxicab : Norm where
  mode := .maxNorm
  accumulate p d := p + d.abs
  finish p _ := p

/-- The mean of absolute differences. -/
def meanAbsolute : Norm where
  mode := .maxNorm
  accumulate p d := p + d.abs
  finish p dims := p / Scalar.ofCount dims

/-- The number of components that differ; a NaN differs. -/
def hamming : Norm where
  mode := .maxNorm
  accumulate p d := if d != 0 then p + 1 else p
  finish p _ := p

/-- The sum of the positive differences. -/
def excess : Norm where
  mode := .maxNorm
  accumulate p d := if d > 0 then p + d else p
  finish p _ := p

/-- Twice the largest difference plus the number of dimensions. -/
def maxDrop : Norm where
  mode := .maxNorm
  accumulate p d := if d > p then d else p
  finish p dims := p * 2 + Scalar.ofCount dims

/-- A similarity in `(0, 1]`, from the sum of squared differences. -/
def similarity : Norm where
  mode := .maxNorm
  accumulate p d := p + d * d
  finish p _ := 1 / (1 + p)

end Norm

end Proximity
