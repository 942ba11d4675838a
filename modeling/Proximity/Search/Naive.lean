import Proximity.Search.Basic

/-!
# The naive search

For each row, every other row is compared with it in order.  A comparison is abandoned as soon as
its accumulator reaches the best one so far, so the best accumulator is always that of a complete
comparison, or infinity if none has come below it.

## Main definitions

* `Naive.compare` : compares a row with one other row.
* `Naive.nearest` : the best accumulator of one row.
* `Naive.minDistances` : the minimum distance of every row.
-/

namespace Proximity

namespace Naive

variable (norm : Norm)

/-- The best accumulator after the row `x` is also compared with the row `y`. -/
def compare (x : List Float) (best : Float) (y : List Float) : Float :=
  improve best (PartialDistance.start.resume norm x y best).value

/-- The best accumulator of row `t`, which is `x`. -/
def nearest (rows : Observations) (x : List Float) (t : Nat) : Float :=
  (others rows t).foldl (fun best other => compare norm x best other.1) Scalar.infinity

/-- The best accumulator of every row. -/
def bests (rows : Observations) : List Float :=
  rows.zipIdx.map fun row => nearest norm rows row.1 row.2

/-- The distance from every row to the nearest other row. -/
def minDistances (rows : Observations) : Except InputError (List Float) :=
  rows.searchShape.map fun shape => finishAll norm shape.dims (bests norm rows)

end Naive

end Proximity
