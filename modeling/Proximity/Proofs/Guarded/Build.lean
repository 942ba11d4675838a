import Proximity.Proofs.Guarded.FlatTable
import Proximity.Proofs.NormMatrix.Variables

/-!
# Norm matrices are built in range

The builders fill a table in place and read their series on trust.  Here the table is asked for, the
series are read and the rows are written with guarded accesses.  After the checks nothing is out of
range, so a builder gives up if and only if there is no room for its table.

* `FlatTable.build?_eq` : the guarded writes are those of `NormMatrix.inPlace`.
* `normMatrix?_eq`, `variableMatrix?_eq` : **a builder gives up if and only if there is no room for
  its table**.
-/

namespace Proximity

namespace FlatTable

/-! ### Writing -/

/-- The table with other values in row `i`. -/
def writeRow? (table : FlatTable) (i : ℕ) (cells : List Float) : Option FlatTable := do
  let (start, stop) ← table.slice? i
  some ⟨NormMatrix.writeSlice table.values start stop cells, table.columns, table.reference⟩

/-- A table of zeros with an infinite reference row, which is asserted to be one of its rows. -/
def start? (rows columns reference : ℕ) : Option FlatTable :=
  if reference < rows then do
    let size ← word? (rows * columns)
    Request.ask? ⟨size, 8⟩
    writeRow? ⟨Array.replicate size 0, columns, reference⟩ reference
      (List.replicate columns Scalar.infinity)
  else none

/-- Writes the given rows one after another. -/
def writeRows? (cells? : ℕ → Option (List Float)) (table : FlatTable) (rows : List ℕ) :
    Option FlatTable :=
  rows.foldlM (fun table t => do
    let cells ← cells? t
    table.writeRow? t cells) table

/-- The table in which every row but the reference row is written. -/
def build? (rows columns reference : ℕ) (cells? : ℕ → Option (List Float)) : Option FlatTable := do
  let table ← start? rows columns reference
  writeRows? cells? table ((List.range rows).filter (· != reference))

variable {rows columns reference t : ℕ} {values : Array Float} {cells? : ℕ → Option (List Float)}
  {cells : ℕ → List Float}

theorem writeRow?_eq_some (hwords : rows * columns < UInt64.size)
    (hsize : values.size = rows * columns) (ht : t < rows) (cells : List Float) :
    (FlatTable.mk values columns reference).writeRow? t cells =
      some ⟨NormMatrix.writeRow columns values t cells, columns, reference⟩ := by
  have hstop : (t + 1) * columns ≤ values.size := hsize ▸ Nat.mul_le_mul_right columns ht
  rw [writeRow?, slice?_eq_some (hsize ▸ hwords) hstop]
  rfl

theorem start?_eq (hr : reference < rows) (hwords : rows * columns < UInt64.size) :
    start? rows columns reference =
      if (Request.mk (rows * columns) 8).Granted then
        some ⟨NormMatrix.blank rows columns reference, columns, reference⟩
      else none := by
  rw [start?, if_pos hr, word?_eq_some hwords]
  change (Request.ask? _ >>= fun _ => _) = _
  rw [Request.ask?_bind, writeRow?_eq_some hwords Array.size_replicate hr]
  rfl

/-- Rows that are in range are written. -/
theorem writeRows?_eq_some (hwords : rows * columns < UInt64.size)
    (hsize : values.size = rows * columns) {written : List ℕ}
    (h : ∀ t ∈ written, t < rows ∧ cells? t = some (cells t)) :
    writeRows? cells? ⟨values, columns, reference⟩ written =
      some ⟨written.foldl (fun values t => NormMatrix.writeRow columns values t (cells t)) values,
        columns, reference⟩ := by
  induction written generalizing values with
  | nil => rfl
  | cons t written ih =>
    obtain ⟨⟨ht, hcells⟩, hrest⟩ := List.forall_mem_cons.1 h
    rw [writeRows?, List.foldlM_cons, hcells]
    change (writeRow? _ t _ >>= fun table => writeRows? cells? table written) = _
    rw [writeRow?_eq_some hwords hsize ht]
    exact ih ((NormMatrix.size_writeRow _ _ _ _).trans hsize) hrest

/-- **A table is filled in place** if there is room for it. -/
theorem build?_eq (hr : reference < rows) (hwords : rows * columns < UInt64.size)
    (h : ∀ t < rows, t ≠ reference → cells? t = some (cells t)) :
    build? rows columns reference cells? =
      if (Request.mk (rows * columns) 8).Granted then
        some ⟨NormMatrix.inPlace rows columns reference cells, columns, reference⟩
      else none := by
  have hwritten : ∀ t ∈ (List.range rows).filter (· != reference),
      t < rows ∧ cells? t = some (cells t) := by
    intro t hmem
    simp only [List.mem_filter, List.mem_range, bne_iff_ne] at hmem
    exact ⟨hmem.1, h t hmem.1 hmem.2⟩
  rw [build?, start?_eq hr hwords]
  split_ifs with hroom
  · exact writeRows?_eq_some hwords (NormMatrix.size_blank _ _ _) hwritten
  · rfl

end FlatTable

/-! ### The builders -/

variable {norm : Norm} {series : List Observations} {rows : Observations} {n dims reference t : ℕ}

/-- The distances of row `t` from the reference row, in every series. -/
def seriesCells? (norm : Norm) (series : List Observations) (reference t : ℕ) :
    Option (List Float) :=
  series.mapM fun rows => do
    let x ← rows[reference]?
    let y ← rows[t]?
    norm.distance? x y

/-- The absolute differences of row `t` from the reference row. -/
def variableCells? (rows : Observations) (reference t : ℕ) : Option (List Float) := do
  let x ← rows[reference]?
  let y ← rows[t]?
  some ((differences x y).map Float.abs)

/-- The distances from the reference row in several series, after the check of the series. -/
def normMatrix? (norm : Norm) (series : List Observations) (reference : ℕ) :
    Option (Except InputError FlatTable) :=
  match parallelRows series reference with
  | .error e => some (.error e)
  | .ok rows => do
    let table ← FlatTable.build? rows series.length reference (seriesCells? norm series reference)
    some (.ok table)

/-- The absolute differences from the reference row, after the checks of the series and of the
reference. -/
def variableMatrix? (rows : Observations) (reference : ℕ) : Option (Except InputError FlatTable) :=
  match rows.shape "series" with
  | .error e => some (.error e)
  | .ok shape =>
    match checkReference reference shape.rows with
    | .error e => some (.error e)
    | .ok _ => do
      let table ← FlatTable.build? shape.rows shape.dims reference (variableCells? rows reference)
      some (.ok table)

/-- What the builder of several series asks for. -/
def seriesRequests (series : List Observations) (reference : ℕ) : List Request :=
  match parallelRows series reference with
  | .error _ => []
  | .ok rows => [⟨rows * series.length, 8⟩]

/-- What the builder of the variables asks for. -/
def variableRequests (rows : Observations) (reference : ℕ) : List Request :=
  match rows.shape "series" with
  | .error _ => []
  | .ok shape =>
    match checkReference reference shape.rows with
    | .error _ => []
    | .ok _ => [⟨shape.rows * shape.dims, 8⟩]

/-- The rows of parallel series are in range, and those of one series are equally long. -/
theorem seriesCells?_eq_some (norm : Norm) (hpar : Parallel series n) (hr : reference < n)
    (ht : t < n) :
    seriesCells? norm series reference t = some (series.map fun rows =>
      norm.distance (rows.getD reference []) (rows.getD t [])) := by
  refine mapM_eq_some fun rows hmem => ?_
  obtain ⟨dims, hrows⟩ := hpar.rectangular rows hmem
  have hlen := hpar.length_eq rows hmem
  have hx := List.getElem?_eq_getElem (hlen ▸ hr : reference < rows.length)
  have hy := List.getElem?_eq_getElem (hlen ▸ ht : t < rows.length)
  rw [List.getD_eq_getElem?_getD, List.getD_eq_getElem?_getD, hx, hy]
  exact norm.distance?_eq_some (by rw [hrows.length_getElem? hx, hrows.length_getElem? hy])

theorem variableCells?_eq_some (hr : reference < rows.length) (ht : t < rows.length) :
    variableCells? rows reference t =
      some ((differences (rows.getD reference []) (rows.getD t [])).map Float.abs) := by
  rw [variableCells?, List.getD_eq_getElem?_getD, List.getD_eq_getElem?_getD,
    List.getElem?_eq_getElem hr, List.getElem?_eq_getElem ht]
  rfl

/-- The places of the entries of a table of several series are words if its size is. -/
theorem normMatrix_places_lt {m : NormMatrix} (hm : normMatrix norm series reference = .ok m)
    (hwords : ∀ rows ∈ series, rows.length * series.length < UInt64.size) :
    m.rows * m.columns < UInt64.size := by
  obtain ⟨n, _, _, hn, rfl⟩ := exists_of_normMatrix_eq_ok hm
  obtain ⟨hpar, -⟩ := parallelRows_eq_ok_iff.1 hn
  obtain ⟨first, hfirst⟩ := List.exists_mem_of_ne_nil series hpar.ne_nil
  exact hpar.length_eq first hfirst ▸ hwords first hfirst

/-- The same for the table of the variables. -/
theorem variableMatrix_places_lt {m : NormMatrix} (hm : variableMatrix rows reference = .ok m)
    (hwords : ∀ row ∈ rows, rows.length * row.length < UInt64.size) :
    m.rows * m.columns < UInt64.size := by
  obtain ⟨shape, _, _, hshape, rfl⟩ := exists_of_variableMatrix_eq_ok hm
  obtain ⟨hlen, hrows⟩ := Observations.shape_eq_ok_iff_rectangular.1 hshape
  have hfirst := List.getElem?_eq_getElem hrows.rows_pos
  change shape.rows * shape.dims < UInt64.size
  rw [hlen, ← hrows.length_getElem? hfirst]
  exact hwords _ (List.mem_of_getElem? hfirst)

/-- The builder of several series asks for the values of its table. -/
theorem mem_seriesRequests {m : NormMatrix} (hm : normMatrix norm series reference = .ok m) :
    ⟨m.rows * m.columns, 8⟩ ∈ seriesRequests series reference := by
  obtain ⟨n, _, _, hn, rfl⟩ := exists_of_normMatrix_eq_ok hm
  rw [seriesRequests, hn]
  exact List.mem_singleton_self _

/-- So does the builder of the variables. -/
theorem mem_variableRequests {m : NormMatrix} (hm : variableMatrix rows reference = .ok m) :
    ⟨m.rows * m.columns, 8⟩ ∈ variableRequests rows reference := by
  obtain ⟨shape, _, hr, hshape, rfl⟩ := exists_of_variableMatrix_eq_ok hm
  have hcheck : checkReference reference shape.rows = .ok () := if_pos hr
  rw [variableRequests, hshape]
  simp only [hcheck]
  exact List.mem_singleton_self _

/-- **The builder of several series gives up if and only if there is no room for its table**, as
long as the number of entries is a word. -/
theorem normMatrix?_eq (norm : Norm) (series : List Observations) (reference : ℕ)
    (hwords : ∀ rows ∈ series, rows.length * series.length < UInt64.size) :
    normMatrix? norm series reference =
      if AllGranted (seriesRequests series reference) then
        some ((normMatrix norm series reference).map NormMatrix.flat)
      else none := by
  cases hn : parallelRows series reference with
  | error e => simp [normMatrix?, seriesRequests, normMatrix_eq_error_iff.2 hn, hn, Except.map]
  | ok n =>
    obtain ⟨hpar, -⟩ := parallelRows_eq_ok_iff.1 hn
    obtain ⟨hc, hr, hmatrix⟩ := normMatrix_of_parallelRows norm hn
    have hword : n * series.length < UInt64.size := normMatrix_places_lt hmatrix hwords
    have hbuild := FlatTable.build?_eq hr hword fun t ht _ =>
      seriesCells?_eq_some norm hpar hr ht
    -- the values that are written are those of the matrix
    have hvalues : _ = NormMatrix.inPlace n series.length reference _ := values_normMatrix hmatrix
    rw [← hvalues] at hbuild
    rw [hmatrix]
    simp only [normMatrix?, seriesRequests, hn, hbuild, allGranted_cons, allGranted_nil, and_true]
    split_ifs <;> rfl

/-- **The builder of the variables gives up if and only if there is no room for its table**, as long
as the number of entries is a word. -/
theorem variableMatrix?_eq (rows : Observations) (reference : ℕ)
    (hwords : ∀ row ∈ rows, rows.length * row.length < UInt64.size) :
    variableMatrix? rows reference =
      if AllGranted (variableRequests rows reference) then
        some ((variableMatrix rows reference).map NormMatrix.flat)
      else none := by
  cases hshape : rows.shape "series" with
  | error e =>
    have hrefused : variableMatrix rows reference = .error e :=
      variableMatrix_eq_error_iff.2 (by rw [hshape]; rfl)
    simp [variableMatrix?, variableRequests, hrefused, hshape, Except.map]
  | ok shape =>
    by_cases hr : reference < shape.rows
    · obtain ⟨hlen, -⟩ := Observations.shape_eq_ok_iff_rectangular.1 hshape
      obtain ⟨hc, hr', hmatrix⟩ := variableMatrix_of_shape hshape hr
      have hcheck : checkReference reference shape.rows = .ok () := if_pos hr
      have hword : shape.rows * shape.dims < UInt64.size :=
        variableMatrix_places_lt hmatrix hwords
      have hbuild := FlatTable.build?_eq hr' hword fun t ht _ =>
        variableCells?_eq_some (hlen ▸ hr) (hlen ▸ ht)
      have hvalues : _ = NormMatrix.inPlace shape.rows shape.dims reference _ :=
        values_variableMatrix hmatrix
      rw [← hvalues] at hbuild
      rw [hmatrix]
      simp only [variableMatrix?, variableRequests, hshape, hcheck, hbuild, allGranted_cons,
        allGranted_nil, and_true]
      split_ifs <;> rfl
    · have hcheck : checkReference reference shape.rows =
          .error (.referenceOutOfRange reference shape.rows) := if_neg hr
      have hrefused : variableMatrix rows reference =
          .error (.referenceOutOfRange reference shape.rows) := by
        refine variableMatrix_eq_error_iff.2 ?_
        rw [hshape]
        exact hcheck
      simp [variableMatrix?, variableRequests, hrefused, hshape, hcheck, Except.map]

end Proximity
