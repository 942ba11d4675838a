import Proximity.Log
import Proximity.Search.Basic
import Proximity.Search.PairTable

/-!
# The fast search

The rows are taken in order, and a table holds where the comparison of each pair stands.  The pass
over row `t` first looks at the pairs with earlier rows that are already complete, which puts a
tight bound in place at no cost.  It then visits the other rows in order, except those earlier
ones, goes on with each pair from where it stands, against the best accumulator so far, and writes
the cell back for later passes.  A pair is thus folded from the side of its earlier row first and
continued, if need be, from the side of its later row; no component is folded twice.

The table of pairs has limits (`PairTable.check`), and the search refuses rows that are beyond them.

## Main definitions

* `Fast.knownBest` : the best complete accumulator of a row before its pass.
* `Fast.visit` : goes on with one pair.
* `Fast.pass` : the pass over one row.
* `Fast.sweep` : all passes, with the final table.
* `Fast.tableShape` : the shape of a table that can be searched and is within the limits.
* `Fast.minDistances` : the minimum distance of every row.
-/

namespace Proximity

namespace Fast

variable (norm : Norm)

/-- The best accumulator of row `t` among the complete pairs with earlier rows. -/
def knownBest (table : PairTable) (dims t : Nat) : Float :=
  (List.range t).foldl (fun best u =>
    let cell := table.get t u
    if cell.progress = dims then improve best cell.value else best) Scalar.infinity

/-- The state of a pass over one row. -/
structure Pass where
  /-- Where the pairs stand. -/
  table : PairTable
  /-- The best accumulator of the row so far. -/
  best : Float

/-- Goes on with the pair of row `t`, which is `x`, and another row.  A complete pair with an
earlier row is passed over, because the pass has looked at it already. -/
def visit (dims : Nat) (x : List Float) (t : Nat) (state : Pass) (other : List Float × Nat) :
    Pass :=
  let ⟨table, best⟩ := state
  let cell := table.get t other.2
  if other.2 < t ∧ cell.progress = dims then ⟨table, best⟩
  else
    let cell := cell.resume norm x other.1 best
    ⟨table.set t other.2 cell, improve best cell.value⟩

/-- The pass over row `t`, which is `x`. -/
def pass (rows : Observations) (dims : Nat) (table : PairTable) (x : List Float) (t : Nat) : Pass :=
  let best := knownBest table dims t
  (others rows t).foldl (visit norm dims x t) ⟨table, best⟩

/-- The state between two passes. -/
structure Sweep where
  /-- Where the pairs stand. -/
  table : PairTable
  /-- The best accumulators of the rows that are done. -/
  bests : Array Float

/-- Adds the pass over one row, given with its index. -/
def advance (rows : Observations) (dims : Nat) (state : Sweep) (row : List Float × Nat) : Sweep :=
  let ⟨table, bests⟩ := state
  let ⟨table, best⟩ := pass norm rows dims table row.1 row.2
  ⟨table, bests.push best⟩

/-- The state after the passes over some rows, given with their indices. -/
def sweepOver (rows : Observations) (dims : Nat) (done : List (List Float × Nat)) : Sweep :=
  done.foldl (advance norm rows dims) ⟨.start rows.length, #[]⟩

/-- The state after all passes. -/
def sweep (rows : Observations) (dims : Nat) : Sweep := sweepOver norm rows dims rows.zipIdx

/-- The shape of a table that can be searched and is within the limits of the table of pairs. -/
def tableShape (rows : Observations) : Except InputError Shape :=
  match rows.searchShape with
  | .error e => .error e
  | .ok shape => (PairTable.check shape).map fun _ => shape

/-- The distance from every row to the nearest other row. -/
def minDistances (rows : Observations) : Logged (Except InputError (List Float)) :=
  match tableShape rows with
  | .error e => .silent (.error e)
  | .ok shape =>
    let distances := finishAll norm shape.dims (sweep norm rows shape.dims).bests.toList
    Logged.report (.tableAllocated shape.rows (PairTable.cellCount shape.rows))
      (.silent (.ok distances))

end Fast

end Proximity
