import Proximity.Memory
import Proximity.Observations
import Proximity.PartialDistance

/-!
# Tables of pairs

A table with one partial distance for every unordered pair of rows.  The cells lie in one array,
ordered by the larger row of the pair and then by the smaller one: the pairs below row `h` take the
first `h * (h - 1) / 2` places.

The table has two limits.  The progress of a cell is a word of 32 bits, so rows may have at most
`PairTable.maxDims` components, and the accumulators have to fit in a vector.  A shape that is
beyond a limit is refused, and nothing is computed.

## Main definitions

* `PairTable.key` : the place of a pair, the same for either order of its rows.
* `PairTable.cellCount` : the number of pairs of `n` rows.
* `PairTable.check` : the limits of a table.
* `PairTable.start`, `PairTable.get`, `PairTable.set`.
-/

namespace Proximity

/-- One partial distance for every unordered pair of rows. -/
structure PairTable where
  /-- The cells, in the order of `PairTable.key`. -/
  cells : Array PartialDistance

namespace PairTable

/-- The number of unordered pairs of `n` rows. -/
def cellCount (n : Nat) : Nat := n * (n - 1) / 2

/-- The place of the pair of rows `i` and `j`. -/
def key (i j : Nat) : Nat := cellCount (max i j) + min i j

/-- The largest number of components that the progress of a cell can count. -/
def maxDims : Nat := 4294967295

/-- The request for the accumulators of `n` rows.  The words of their progress take half the
room. -/
def request (n : Nat) : Request := ⟨cellCount n, 8⟩

/-- The limits of a table. -/
def check (shape : Shape) : Except InputError Unit :=
  if maxDims < shape.dims then .error (.tooManyDimensions shape.dims)
  else if (request shape.rows).Granted then .ok ()
  else .error (.tableTooLarge shape.rows)

/-- The table for `n` rows in which nothing is folded yet. -/
def start (n : Nat) : PairTable := ⟨Array.replicate (cellCount n) .start⟩

/-- The cell of the rows `i` and `j`. -/
def get (table : PairTable) (i j : Nat) : PartialDistance := table.cells.getD (key i j) .start

/-- The table with another cell for the rows `i` and `j`. -/
def set (table : PairTable) (i j : Nat) (cell : PartialDistance) : PairTable :=
  ⟨table.cells.setIfInBounds (key i j) cell⟩

theorem key_comm (i j : Nat) : key i j = key j i := by
  simp only [key, Nat.max_comm, Nat.min_comm]

theorem key_of_lt {lo hi : Nat} (h : lo < hi) : key hi lo = cellCount hi + lo := by
  simp only [key, Nat.max_eq_left (Nat.le_of_lt h), Nat.min_eq_right (Nat.le_of_lt h)]

@[simp] theorem size_start (n : Nat) : (start n).cells.size = cellCount n :=
  Array.size_replicate

@[simp] theorem size_set (table : PairTable) (i j : Nat) (cell : PartialDistance) :
    (table.set i j cell).cells.size = table.cells.size :=
  Array.size_setIfInBounds

theorem get_comm (table : PairTable) (i j : Nat) : table.get i j = table.get j i := by
  simp only [get, key_comm]

end PairTable

end Proximity
