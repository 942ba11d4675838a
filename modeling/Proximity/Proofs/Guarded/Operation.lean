import Proximity.Engine
import Proximity.Proofs.Guarded.Build
import Proximity.Proofs.Guarded.Search

/-!
# Operations and their memory

An operation checks its operands and then relies on what it has checked.  With guarded accesses it
reports the fault of its operands, or all its accesses are in range and its result is that of the
unguarded operation.  What can fail is memory: the vectors that an operation asks for may be larger
than any vector.  Of the tables that come out, every reading is possible but that of a row out of
range, and a copy of all rows needs room, too.  Indices are assumed to be machine words.

* `Operation` : the operations with their operands.
* `Operation.check` : what is checked before a distance is computed.
* `Operation.requests` : the vectors that an operation asks for.
* `Operation.guarded` : an operation with guarded accesses.
* `FlatTable.Reads` : what can be read of a table.
* `Operation.guarded_eq` : **an operation gives up if and only if a vector is too large**.
* `Operation.guarded_replicate` : operands of one row each that ask for too large a table.
-/

namespace Proximity

/-! ### Operations -/

/-- An operation with its operands. -/
inductive Operation where
  /-- The minimum distances, by the search that the number of rows calls for. -/
  | minDistances (norm : Norm) (maxRows : UInt64) (rows : Observations)
  /-- The minimum distances by a given search. -/
  | minDistancesBy (norm : Norm) (algorithm : Algorithm) (rows : Observations)
  /-- The distances from a reference row in several series. -/
  | normMatrix (norm : Norm) (series : List Observations) (reference : ℕ)
  /-- The distances from a reference row in two series. -/
  | pairMatrix (norm : Norm) (a b : Observations) (reference : ℕ)
  /-- The distances from a reference row in three series. -/
  | tripleMatrix (norm : Norm) (a b c : Observations) (reference : ℕ)
  /-- The differences from a reference row, per variable. -/
  | variableMatrix (rows : Observations) (reference : ℕ)
  /-- The distance of two vectors. -/
  | distance (engine : Engine) (a b : List Float)
  /-- The distance of two points of a product space. -/
  | jointDistance (engine : Engine) (x₁ y₁ x₂ y₂ : List Float)

/-- What comes out of a guarded operation. -/
inductive Output where
  /-- One distance. -/
  | distance (value : Float)
  /-- One distance per row. -/
  | distances (values : List Float)
  /-- The distances from a reference row. -/
  | table (table : FlatTable)

/-- An answer with the invariants of its matrix left out. -/
def Answer.output : Answer → Output
  | .distance value => .distance value
  | .distances values => .distances values
  | .matrix m => .table m.flat

namespace Operation

/-- What is answered to an operation. -/
def run : Operation → Except InputError Answer
  | minDistances norm maxRows rows =>
    (Proximity.minDistances norm maxRows rows).result.map .distances
  | minDistancesBy norm algorithm rows =>
    (Proximity.minDistancesBy norm algorithm rows).result.map .distances
  | normMatrix norm series reference => (Proximity.normMatrix norm series reference).map .matrix
  | pairMatrix norm a b reference => (Proximity.pairMatrix norm a b reference).map .matrix
  | tripleMatrix norm a b c reference => (Proximity.tripleMatrix norm a b c reference).map .matrix
  | variableMatrix rows reference => (Proximity.variableMatrix rows reference).map .matrix
  | distance engine a b => (engine.distance a b).map .distance
  | jointDistance engine x₁ y₁ x₂ y₂ => (engine.jointDistance x₁ y₁ x₂ y₂).map .distance

/-- What is checked before a distance is computed. -/
def check : Operation → Except InputError Unit
  | minDistances _ maxRows rows =>
    (rows.shapeBy (.select rows.length maxRows)).map fun _ => ()
  | minDistancesBy _ algorithm rows => (rows.shapeBy algorithm).map fun _ => ()
  | normMatrix _ series reference => (parallelRows series reference).map fun _ => ()
  | pairMatrix _ a b reference => (parallelRows [a, b] reference).map fun _ => ()
  | tripleMatrix _ a b c reference => (parallelRows [a, b, c] reference).map fun _ => ()
  | variableMatrix rows reference =>
    rows.shape "series" >>= fun shape => checkReference reference shape.rows
  | distance _ a b => checkOperands "norm operands" a b
  | jointDistance _ x₁ y₁ x₂ y₂ =>
    checkOperands "joint norm x operands" x₁ x₂ >>= fun _ =>
      checkOperands "joint norm y operands" y₁ y₂

/-- The vectors that an operation asks for.  Two and three series are collected as references of two
words for every row, before anything is checked. -/
def requests : Operation → List Request
  | minDistances _ _ rows | minDistancesBy _ _ rows => searchRequests rows
  | normMatrix _ series reference => seriesRequests series reference
  | pairMatrix _ a b reference =>
    ⟨a.length, 16⟩ :: ⟨b.length, 16⟩ :: seriesRequests [a, b] reference
  | tripleMatrix _ a b c reference =>
    ⟨a.length, 16⟩ :: ⟨b.length, 16⟩ :: ⟨c.length, 16⟩ :: seriesRequests [a, b, c] reference
  | variableMatrix rows reference => variableRequests rows reference
  | distance .. | jointDistance .. => []

/-- An operation with guarded accesses. -/
def guarded : Operation → Option (Except InputError Output)
  | minDistances norm maxRows rows =>
    (minDistancesBy? norm (.select rows.length maxRows) rows).map (Except.map .distances)
  | minDistancesBy norm algorithm rows =>
    (minDistancesBy? norm algorithm rows).map (Except.map .distances)
  | normMatrix norm series reference =>
    (normMatrix? norm series reference).map (Except.map .table)
  | pairMatrix norm a b reference => do
    Request.ask? ⟨a.length, 16⟩
    Request.ask? ⟨b.length, 16⟩
    (normMatrix? norm [a, b] reference).map (Except.map .table)
  | tripleMatrix norm a b c reference => do
    Request.ask? ⟨a.length, 16⟩
    Request.ask? ⟨b.length, 16⟩
    Request.ask? ⟨c.length, 16⟩
    (normMatrix? norm [a, b, c] reference).map (Except.map .table)
  | variableMatrix rows reference => (variableMatrix? rows reference).map (Except.map .table)
  | distance engine a b =>
    match checkOperands "norm operands" a b with
    | .error e => some (.error e)
    | .ok _ => do
      let value ← engine.norm.distance? a b
      some (.ok (.distance value))
  | jointDistance engine x₁ y₁ x₂ y₂ =>
    match checkOperands "joint norm x operands" x₁ x₂ with
    | .error e => some (.error e)
    | .ok _ =>
      match checkOperands "joint norm y operands" y₁ y₂ with
      | .error e => some (.error e)
      | .ok _ => do
        let x ← engine.norm.distance? x₁ x₂
        let y ← engine.norm.distance? y₁ y₂
        some (.ok (.distance (Scalar.larger x y)))

/-- The indices that an operation computes are machine words: the places of entries in a table.  The
places of pairs in the fast search are words whenever their table is within its limits. -/
def IndicesFit : Operation → Prop
  | normMatrix _ series _ => ∀ rows ∈ series, rows.length * series.length < UInt64.size
  | pairMatrix _ a b _ => ∀ rows ∈ [a, b], rows.length * 2 < UInt64.size
  | tripleMatrix _ a b c _ => ∀ rows ∈ [a, b, c], rows.length * 3 < UInt64.size
  | variableMatrix rows _ => ∀ row ∈ rows, rows.length * row.length < UInt64.size
  | minDistances .. | minDistancesBy .. | distance .. | jointDistance .. => True

end Operation

/-! ### Tables -/

/-- What can be read of the values of a norm matrix: there is a column to divide and to step by, and
every reading is the one of the matrix. -/
structure FlatTable.Reads (table : FlatTable) (m : NormMatrix) : Prop where
  /-- There is a column. -/
  columns_pos : 0 < table.columns
  /-- The number of rows. -/
  rows?_eq : table.rows? = some m.rows
  /-- The rows. -/
  row?_eq : ∀ i, table.row? i = m.row? i
  /-- The entries. -/
  get?_eq : ∀ i j, i * table.columns + j < UInt64.size → table.get? i j = some (m.get? i j)
  /-- The columns. -/
  column?_eq : ∀ j, table.column? j = some (m.column? j)
  /-- All rows. -/
  chunks?_eq : table.chunks? = some m.toRows

theorem NormMatrix.reads_flat (m : NormMatrix) (hwords : m.rows * m.columns < UInt64.size) :
    m.flat.Reads m where
  columns_pos := m.columns_pos
  rows?_eq := m.rows?_flat
  row?_eq := m.row?_flat hwords
  get?_eq _ _ hword := m.get?_flat hword
  column?_eq := m.column?_flat
  chunks?_eq := m.chunks?_flat

namespace Operation

/-! ### All operations -/

/-- An operation reports a fault if and only if its check does. -/
theorem run_eq_error_iff (op : Operation) {e : InputError} :
    op.run = .error e ↔ op.check = .error e := by
  cases op with
  | minDistances norm maxRows rows =>
    simp only [run, check, Proximity.minDistances, Logged.report, map_eq_error_iff,
      result_minDistancesBy_eq_map]
  | minDistancesBy norm algorithm rows =>
    simp only [run, check, map_eq_error_iff, result_minDistancesBy_eq_map]
  | normMatrix norm series reference =>
    simp only [run, check, map_eq_error_iff, normMatrix_eq_error_iff]
  | pairMatrix norm a b reference =>
    simp only [run, check, Proximity.pairMatrix, map_eq_error_iff, normMatrix_eq_error_iff]
  | tripleMatrix norm a b c reference =>
    simp only [run, check, Proximity.tripleMatrix, map_eq_error_iff, normMatrix_eq_error_iff]
  | variableMatrix rows reference =>
    simp only [run, check, map_eq_error_iff, variableMatrix_eq_error_iff]
  | distance engine a b =>
    simp only [run, check, map_eq_error_iff, Engine.distance]
    cases checkOperands "norm operands" a b <;> simp
  | jointDistance engine x₁ y₁ x₂ y₂ =>
    simp only [run, check, map_eq_error_iff, Engine.jointDistance]
    cases checkOperands "joint norm x operands" x₁ x₂ with
    | error e' => simp [bind, Except.bind]
    | ok _ =>
      cases checkOperands "joint norm y operands" y₁ y₂ <;> simp [bind, Except.bind]

/-- What a search gives and what is answered come out alike. -/
theorem map_distances_eq {p : Prop} [Decidable p] (x : Except InputError (List Float)) :
    (if p then some x else none).map (Except.map Output.distances) =
      if p then some ((x.map Answer.distances).map Answer.output) else none := by
  split_ifs
  · cases x <;> rfl
  · rfl

/-- The values of a matrix and the matrix that is answered come out alike. -/
theorem map_table_eq {p : Prop} [Decidable p] (x : Except InputError NormMatrix) :
    (if p then some (x.map NormMatrix.flat) else none).map (Except.map Output.table) =
      if p then some ((x.map Answer.matrix).map Answer.output) else none := by
  split_ifs
  · cases x <;> rfl
  · rfl

/-- With guarded accesses an operation has the same result, unless a request is refused. -/
theorem guarded_eq_if (op : Operation) (h : op.IndicesFit) :
    op.guarded = if AllGranted op.requests then some (op.run.map Answer.output) else none := by
  cases op with
  | minDistances norm maxRows rows =>
    rw [guarded, minDistancesBy?_eq]
    exact map_distances_eq _
  | minDistancesBy norm algorithm rows =>
    rw [guarded, minDistancesBy?_eq]
    exact map_distances_eq _
  | normMatrix norm series reference =>
    rw [guarded, normMatrix?_eq norm series reference h]
    exact map_table_eq _
  | pairMatrix norm a b reference =>
    simp only [guarded, Request.ask?_bind, normMatrix?_eq norm [a, b] reference h, map_table_eq,
      requests, allGranted_cons, ite_and]
    rfl
  | tripleMatrix norm a b c reference =>
    simp only [guarded, Request.ask?_bind, normMatrix?_eq norm [a, b, c] reference h, map_table_eq,
      requests, allGranted_cons, ite_and]
    rfl
  | variableMatrix rows reference =>
    rw [guarded, variableMatrix?_eq rows reference h]
    exact map_table_eq _
  | distance engine a b =>
    rw [guarded, run, Engine.distance, requests, if_pos allGranted_nil]
    cases hab : checkOperands "norm operands" a b with
    | error e => rfl
    | ok _ =>
      simp only [engine.norm.distance?_eq_some (checkOperands_eq_ok_iff.1 hab).length_eq,
        NormMode.distance_eq_norm]
      rfl
  | jointDistance engine x₁ y₁ x₂ y₂ =>
    rw [guarded, run, Engine.jointDistance, requests, if_pos allGranted_nil]
    cases hx : checkOperands "joint norm x operands" x₁ x₂ with
    | error e => rfl
    | ok _ =>
      cases hy : checkOperands "joint norm y operands" y₁ y₂ with
      | error e => rfl
      | ok _ =>
        simp only [engine.norm.distance?_eq_some (checkOperands_eq_ok_iff.1 hx).length_eq,
          engine.norm.distance?_eq_some (checkOperands_eq_ok_iff.1 hy).length_eq,
          NormMode.distance_eq_norm]
        rfl

/-- An operation that answers with a matrix has built it from series or from variables, and has
asked for its values. -/
theorem exists_builder (op : Operation) {m : NormMatrix} (hm : op.run = .ok (.matrix m)) :
    (∃ norm series reference, Proximity.normMatrix norm series reference = .ok m ∧
        (op.IndicesFit → ∀ rows ∈ series, rows.length * series.length < UInt64.size) ∧
        ∀ request ∈ seriesRequests series reference, request ∈ op.requests) ∨
      ∃ rows reference, Proximity.variableMatrix rows reference = .ok m ∧
        (op.IndicesFit → ∀ row ∈ rows, rows.length * row.length < UInt64.size) ∧
        ∀ request ∈ variableRequests rows reference, request ∈ op.requests := by
  cases op with
  | minDistances norm maxRows rows =>
    obtain ⟨_, -, ⟨⟩⟩ := map_eq_ok_iff.1 hm
  | minDistancesBy norm algorithm rows =>
    obtain ⟨_, -, ⟨⟩⟩ := map_eq_ok_iff.1 hm
  | normMatrix norm series reference =>
    obtain ⟨_, hmatrix, ⟨⟩⟩ := map_eq_ok_iff.1 hm
    exact .inl ⟨_, _, _, hmatrix, id, fun _ => id⟩
  | pairMatrix norm a b reference =>
    obtain ⟨_, hmatrix, ⟨⟩⟩ := map_eq_ok_iff.1 hm
    refine .inl ⟨_, _, _, hmatrix, id, fun request hrequest => ?_⟩
    exact List.mem_cons_of_mem _ (List.mem_cons_of_mem _ hrequest)
  | tripleMatrix norm a b c reference =>
    obtain ⟨_, hmatrix, ⟨⟩⟩ := map_eq_ok_iff.1 hm
    refine .inl ⟨_, _, _, hmatrix, id, fun request hrequest => ?_⟩
    exact List.mem_cons_of_mem _ (List.mem_cons_of_mem _ (List.mem_cons_of_mem _ hrequest))
  | variableMatrix rows reference =>
    obtain ⟨_, hmatrix, ⟨⟩⟩ := map_eq_ok_iff.1 hm
    exact .inr ⟨_, _, hmatrix, id, fun _ => id⟩
  | distance engine a b =>
    obtain ⟨_, -, ⟨⟩⟩ := map_eq_ok_iff.1 hm
  | jointDistance engine x₁ y₁ x₂ y₂ =>
    obtain ⟨_, -, ⟨⟩⟩ := map_eq_ok_iff.1 hm

/-- The places of a table that comes out are words. -/
theorem places_lt (op : Operation) (h : op.IndicesFit) {m : NormMatrix}
    (hm : op.run = .ok (.matrix m)) : m.rows * m.columns < UInt64.size := by
  rcases op.exists_builder hm with ⟨_, _, _, hmatrix, hwords, -⟩ | ⟨_, _, hmatrix, hwords, -⟩
  · exact normMatrix_places_lt hmatrix (hwords h)
  · exact variableMatrix_places_lt hmatrix (hwords h)

/-- There is room for the values of a table that comes out. -/
theorem values_granted (op : Operation) (h : AllGranted op.requests) {m : NormMatrix}
    (hm : op.run = .ok (.matrix m)) : (Request.mk (m.rows * m.columns) 8).Granted := by
  rcases op.exists_builder hm with ⟨_, _, _, hmatrix, -, hrequests⟩ | ⟨_, _, hmatrix, -, hrequests⟩
  · exact h _ (hrequests _ (mem_seriesRequests hmatrix))
  · exact h _ (hrequests _ (mem_variableRequests hmatrix))

/-- **An operation gives up if and only if a vector that it asks for is too large**, for any norm
and any operands, as long as the indices that it computes are words.  Otherwise it has the same
result with all accesses guarded.  It reports a fault if and only if its check does, before a
distance is computed.  A table that comes out has a column, every reading of it is the one of its
matrix, and the only reading of a part that gives up is that of a row out of range.  A copy of all
rows gives up if and only if there is no room for that many vectors. -/
theorem guarded_eq (op : Operation) (h : op.IndicesFit) :
    (op.guarded = if AllGranted op.requests then some (op.run.map Answer.output) else none) ∧
    (∀ e, op.run = .error e ↔ op.check = .error e) ∧
    ∀ m, op.run = .ok (.matrix m) →
      m.flat.Reads m ∧ (∀ i, m.flat.row? i = none ↔ m.rows ≤ i) ∧
      (AllGranted op.requests → m.flat.intoRows? =
        if (Request.mk m.rows 24).Granted then some m.toRows else none) := by
  refine ⟨op.guarded_eq_if h, fun e => op.run_eq_error_iff, fun m hm => ?_⟩
  have hreads := m.reads_flat (op.places_lt h hm)
  refine ⟨hreads, fun i => ?_, fun hgranted => m.intoRows?_flat (op.values_granted hgranted hm)⟩
  rw [hreads.row?_eq]
  exact m.row?_eq_none_iff

/-- Two series under a one-sided norm, and a table with a row that is too short. -/
theorem guarded_eq_excess :
    IndicesFit (.normMatrix .excess [[[0, 5], [3, 1], [0 / 0, 2]], [[1], [2], [7]]] 1) ∧
    IndicesFit (.minDistances .euclidean 2 [[1, 2], [3]]) ∧
    (∃ m, run (.normMatrix .excess [[[0, 5], [3, 1], [0 / 0, 2]], [[1], [2], [7]]] 1) =
        .ok (.matrix m) ∧
      guarded (.normMatrix .excess [[[0, 5], [3, 1], [0 / 0, 2]], [[1], [2], [7]]] 1) =
        some (.ok (.table m.flat)) ∧
      m.flat.rows? = some 3 ∧ m.flat.row? 2 = some [0, 0] ∧ m.flat.row? 3 = none ∧
      m.flat.intoRows? = some m.toRows) ∧
    guarded (.minDistances .euclidean 2 [[1, 2], [3]]) =
      some (.error (.raggedRow "observations" 1 2 1)) := by
  have hfit :
      IndicesFit (.normMatrix .excess [[[0, 5], [3, 1], [0 / 0, 2]], [[1], [2], [7]]] 1) := by
    change ∀ rows ∈ _, _
    decide
  obtain ⟨hguarded, -, hreads⟩ := guarded_eq _ hfit
  obtain ⟨hguarded', -, -⟩ := guarded_eq (.minDistances .euclidean 2 [[1, 2], [3]]) trivial
  have hroom : AllGranted (requests
      (.normMatrix .excess [[[0, 5], [3, 1], [0 / 0, 2]], [[1], [2], [7]]] 1)) := by decide
  refine ⟨hfit, trivial, ?_, hguarded'⟩
  obtain ⟨_, _, hm⟩ := normMatrix_of_parallelRows .excess (by decide : parallelRows
    [[[0, 5], [3, 1], [0 / 0, 2]], [[1], [2], [7]]] 1 = .ok 3)
  have hrun : run (.normMatrix .excess [[[0, 5], [3, 1], [0 / 0, 2]], [[1], [2], [7]]] 1) = _ :=
    congrArg (Except.map Answer.matrix) hm
  obtain ⟨hrows, hrow, hcopy⟩ := hreads _ hrun
  rw [hrun, if_pos hroom] at hguarded
  refine ⟨_, hrun, hguarded, hrows.rows?_eq, ?_, (hrow 3).2 (Nat.le_refl 3), ?_⟩
  · rw [hrows.row?_eq]
    exact (NormMatrix.row?_ofFn (by decide)).trans (by decide +kernel)
  · rw [hcopy hroom]
    exact if_pos (by decide : (Request.mk 3 24).Granted)

/-! ### Too large a table -/

/-- A table of the variables that is accepted and for which there is no room. -/
theorem guarded_variableMatrix {rows : Observations} {dims reference : ℕ}
    (hrows : rows.Rectangular dims) (hr : reference < rows.length)
    (hwords : rows.length * dims < UInt64.size)
    (hroom : ¬ (Request.mk (rows.length * dims) 8).Granted) :
    IndicesFit (.variableMatrix rows reference) ∧ check (.variableMatrix rows reference) = .ok () ∧
      guarded (.variableMatrix rows reference) = none := by
  have hshape : rows.shape "series" = .ok ⟨rows.length, dims⟩ := hrows.shape_eq "series"
  have hcheck : checkReference reference rows.length = .ok () := if_pos hr
  have hfit : IndicesFit (.variableMatrix rows reference) := by
    intro row hrow
    rwa [hrows.length_eq row hrow]
  refine ⟨hfit, ?_, ?_⟩
  · rw [check, hshape]
    exact hcheck
  · have hrefused : ¬ AllGranted (requests (.variableMatrix rows reference)) := by
      simp only [requests, variableRequests, hshape, hcheck, allGranted_cons, hroom, false_and,
        not_false_eq_true]
    rw [guarded_eq_if _ hfit, if_neg hrefused]

end Operation

theorem Observations.rectangular_replicate {n dims : ℕ} (hn : 0 < n) (hdims : 0 < dims)
    (v : Float) : Observations.Rectangular (List.replicate n (List.replicate dims v)) dims where
  rows_pos := by rwa [List.length_replicate]
  dims_pos := hdims
  length_eq row hrow := by rw [List.eq_of_mem_replicate hrow, List.length_replicate]

namespace Operation

/-- One row of `2 ^ 32` components, named `2 ^ 28` times, passes the check of the variables, and its
table would have `2 ^ 60` entries.  Two series are collected before they are checked, so as many as
`2 ^ 59` rows are too many even if they are empty. -/
theorem guarded_replicate :
    (IndicesFit (.variableMatrix (List.replicate 268435456 (List.replicate 4294967296 0)) 0) ∧
      check (.variableMatrix (List.replicate 268435456 (List.replicate 4294967296 0)) 0) = .ok () ∧
      guarded (.variableMatrix (List.replicate 268435456 (List.replicate 4294967296 0)) 0) =
        none) ∧
    IndicesFit (.pairMatrix .euclidean (List.replicate 576460752303423488 []) [[1]] 0) ∧
    guarded (.pairMatrix .euclidean (List.replicate 576460752303423488 []) [[1]] 0) = none := by
  have hrows := Observations.rectangular_replicate (by decide : 0 < 268435456)
    (by decide : 0 < 4294967296) 0
  have hfit : IndicesFit
      (.pairMatrix .euclidean (List.replicate 576460752303423488 []) [[1]] 0) := by
    intro rows hmem
    rcases List.mem_pair.1 hmem with rfl | rfl
    · rw [List.length_replicate]
      decide
    · decide
  have hrefused : ¬ AllGranted
      (requests (.pairMatrix .euclidean (List.replicate 576460752303423488 []) [[1]] 0)) := by
    rw [requests, allGranted_cons, List.length_replicate]
    exact fun h => absurd h.1 (by decide)
  refine ⟨guarded_variableMatrix hrows hrows.rows_pos ?_ ?_, hfit, ?_⟩
  · rw [List.length_replicate]
    decide
  · rw [List.length_replicate]
    decide
  · rw [guarded_eq_if _ hfit, if_neg hrefused]

end Operation

end Proximity
