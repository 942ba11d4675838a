/-!
# Search algorithms

Minimum distances are found by one of two searches.  The *naive* search looks at every pair of rows
twice and keeps nothing.  The *fast* search keeps one cell per pair, so its memory grows with the
square of the number of rows; it is used up to a given number of rows.
-/

namespace Proximity

/-- The two searches. -/
inductive Algorithm where
  /-- A scan over all pairs that keeps nothing. -/
  | naive
  /-- A scan that keeps one cell per pair. -/
  | fast
  deriving DecidableEq, Repr

namespace Algorithm

/-- The name of a search. -/
def name : Algorithm → String
  | naive => "Naive"
  | fast => "Fast"

/-- The fast search up to `maxRows` rows, and the naive search above. -/
def select (rows : Nat) (maxRows : UInt64) : Algorithm :=
  if rows ≤ maxRows.toNat then .fast else .naive

end Algorithm

end Proximity
