import Proximity.InputError

/-!
# Observations

Observations are the rows of a table: one row per point, one component per dimension.  Nothing in
the type keeps the rows equally long, so each operation first asks for the *shape* of its input and
goes on only if there is one.  The functions below report the first fault in reading order.

## Main definitions

* `Observations.shape` : the number of rows and of dimensions of a rectangular, non-empty table.
* `Observations.searchShape` : the same for a table in which every row has another row to be
  compared with.
* `parallelRows` : the common number of rows of several tables, with a reference row among them.
* `checkReference`, `checkOperands` : the checks on an index and on two vectors.
-/

namespace Proximity

/-- The rows of a table of observations. -/
abbrev Observations := List (List Float)

/-- The size of a rectangular table. -/
structure Shape where
  /-- The number of rows. -/
  rows : Nat
  /-- The number of components of each row. -/
  dims : Nat
  deriving DecidableEq, Repr

namespace Observations

/-- The shape of a table: it has a row, its first row has a component, and every other row is as
long as the first. -/
def shape (what : String) (rows : Observations) : Except InputError Shape :=
  match rows with
  | [] => .error (.empty what)
  | first :: _ =>
    if first.length = 0 then .error (.zeroDimensional what)
    else match rows.zipIdx.find? fun row => row.1.length != first.length with
      | some (row, t) => .error (.raggedRow what t first.length row.length)
      | none => .ok ⟨rows.length, first.length⟩

/-- The shape of a table with at least two rows. -/
def searchShape (rows : Observations) : Except InputError Shape :=
  match rows.shape "observations" with
  | .error e => .error e
  | .ok shape => if shape.rows < 2 then .error (.tooFewObservations shape.rows) else .ok shape

end Observations

/-- The reference index names one of the rows. -/
def checkReference (reference rows : Nat) : Except InputError Unit :=
  if reference < rows then .ok () else .error (.referenceOutOfRange reference rows)

/-- Two vectors have components, and equally many. -/
def checkOperands (what : String) (a b : List Float) : Except InputError Unit :=
  if a.length = 0 then .error (.empty what)
  else if a.length = b.length then .ok ()
  else .error (.unequalLengths what a.length b.length)

/-- Takes one more series, given the number of rows of the series before it: the series is a table,
and it has that number of rows. -/
def extendParallel (expected : Option Nat) (series : Observations × Nat) :
    Except InputError (Option Nat) :=
  match series.1.shape s!"series {series.2}" with
  | .error e => .error e
  | .ok shape =>
    match expected with
    | none => .ok (some shape.rows)
    | some rows =>
      if rows = shape.rows then .ok expected else .error (.unequalSeries series.2 rows shape.rows)

/-- The common number of rows of several series: each is a table, all have the same number of rows,
there is at least one, and the reference index names a row. -/
def parallelRows (series : List Observations) (reference : Nat) : Except InputError Nat :=
  match series.zipIdx.foldlM extendParallel none with
  | .error e => .error e
  | .ok none => .error .noSeries
  | .ok (some rows) => (checkReference reference rows).map fun _ => rows

end Proximity
