import Proximity.Observations
import Proximity.PartialDistance
import Proximity.Scalar

/-!
# Searching for the nearest row

What both searches share.  A search compares a row with every other row and keeps the best
accumulator, starting from infinity.  An accumulator that is a NaN is not below anything, so it is
never kept.  Distances are finished only when the best accumulators of all rows are known.

## Main definitions

* `others` : the rows that one row is compared with.
* `improve` : the better of two accumulators.
* `finishAll` : the distances that belong to the best accumulators.
-/

namespace Proximity

/-- Every row but row `t`, with its index, in row order. -/
def others (rows : Observations) (t : Nat) : List (List Float × Nat) :=
  rows.zipIdx.filter fun row => row.2 != t

theorem mem_others {rows : Observations} {t u : Nat} {y : List Float} :
    (y, u) ∈ others rows t ↔ rows[u]? = some y ∧ u ≠ t := by
  simp only [others, List.mem_filter, List.mk_mem_zipIdx_iff_getElem?, bne_iff_ne]

/-- The smaller of the best accumulator so far and a new one. -/
def improve (best value : Float) : Float := if value < best then value else best

theorem improve_of_lt {best value : Float} (h : value < best) : improve best value = value :=
  if_pos h

theorem improve_of_not_lt {best value : Float} (h : ¬ value < best) : improve best value = best :=
  if_neg h

/-- The distances that belong to the best accumulators. -/
def finishAll (norm : Norm) (dims : Nat) (bests : List Float) : List Float :=
  bests.map fun best => norm.finish best dims

end Proximity
