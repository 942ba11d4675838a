import Proximity.Search.Fast
import Proximity.Search.Naive

/-!
# Minimum distances

The distance from every row to the nearest other row, by the search that the number of rows calls
for.  The choice is reported before the input is checked.
-/

namespace Proximity

/-- The minimum distances by the given search. -/
def minDistancesBy (norm : Norm) (algorithm : Algorithm) (rows : Observations) :
    Logged (Except InputError (List Float)) :=
  match algorithm with
  | .naive => .silent (Naive.minDistances norm rows)
  | .fast => Fast.minDistances norm rows

/-- The minimum distances by the fast search up to `maxRows` rows and by the naive search above. -/
def minDistances (norm : Norm) (maxRows : UInt64) (rows : Observations) :
    Logged (Except InputError (List Float)) :=
  let algorithm := Algorithm.select rows.length maxRows
  Logged.report (.searchChosen rows.length maxRows norm.mode algorithm)
    (minDistancesBy norm algorithm rows)

end Proximity
