import Proximity.Proofs.Guarded.Basic
import Proximity.Proofs.Search.Lockstep

/-!
# Searches stay in range

The searches check the shape of a table once and then read its rows, their components and the cells
of the pairs without checking any index again.  Here they are once more with guarded accesses.  On a
table that can be searched, no access is out of range, as long as the products that give the places
of pairs are machine words; and they are if the table of pairs is within its limits.  What is left
is memory: a search asks for room for its rows, and a table may have more rows than a vector can
name.

* `PairTable.key?_eq_some` : two different rows have a place, and it is computed in words.
* `Naive.bests?_eq_some`, `Fast.sweep?_eq_some` : **a search of a checked table stays in range**.
* `minDistancesBy?_eq` : a search gives up if and only if there is no room for its rows.
-/

namespace Proximity

variable {norm : Norm} {rows : Observations} {dims n t u : ℕ} {x y : List Float}

/-! ### The table of pairs -/

namespace PairTable

/-- The place of the pair of rows `i` and `j`, which are asserted to be different. -/
def key? (i j : ℕ) : Option ℕ :=
  if i = j then none else do
    let product ← word? (max i j * (max i j - 1))
    word? (product / 2 + min i j)

/-- The cell of the rows `i` and `j`. -/
def get? (table : PairTable) (i j : ℕ) : Option PartialDistance := do
  let k ← key? i j
  table.cells[k]?

/-- The table with another cell for the rows `i` and `j`. -/
def set? (table : PairTable) (i j : ℕ) (cell : PartialDistance) : Option PairTable := do
  let k ← key? i j
  if k < table.cells.size then some ⟨table.cells.setIfInBounds k cell⟩ else none

variable {table : PairTable}

/-- The place of two different rows is computed in words if the table has that many places. -/
theorem key?_eq_some (htu : t ≠ u) (ht : t < n) (hu : u < n) (hn : n * (n - 1) < UInt64.size) :
    key? t u = some (key t u) := by
  rw [key?, if_neg htu, word?_eq_some (mul_pred_lt_size ht hu hn)]
  exact word?_eq_some (key_lt_size htu ht hu hn)

theorem get?_eq_some (hsize : table.cells.size = cellCount n) (htu : t ≠ u) (ht : t < n)
    (hu : u < n) (hn : n * (n - 1) < UInt64.size) : table.get? t u = some (table.get t u) := by
  rw [get?, key?_eq_some htu ht hu hn]
  exact getElem?_key (hsize ▸ key_lt_cellCount_of_ne htu ht hu)

theorem set?_eq_some (hsize : table.cells.size = cellCount n) (htu : t ≠ u) (ht : t < n)
    (hu : u < n) (hn : n * (n - 1) < UInt64.size) (cell : PartialDistance) :
    table.set? t u cell = some (table.set t u cell) := by
  rw [set?, key?_eq_some htu ht hu hn]
  exact if_pos (hsize ▸ key_lt_cellCount_of_ne htu ht hu)

end PairTable

/-- The indices of the other rows. -/
theorem map_snd_others (rows : Observations) (t : ℕ) :
    (others rows t).map Prod.snd = (List.range rows.length).filter (· != t) := by
  rw [List.range_eq_range', ← List.zipIdx_map_snd, List.filter_map]
  rfl

/-! ### The naive search -/

namespace Naive

/-- The best accumulator after the row `x` is also compared with the row `y`. -/
def compare? (norm : Norm) (x : List Float) (best : Float) (y : List Float) : Option Float := do
  let cell ← PartialDistance.start.resume? norm x y best
  some (improve best cell.value)

/-- The best accumulator of row `t`, which is `x`. -/
def nearest? (norm : Norm) (rows : Observations) (x : List Float) (t : ℕ) : Option Float :=
  (others rows t).foldlM (fun best other => compare? norm x best other.1) Scalar.infinity

/-- The best accumulator of every row. -/
def bests? (norm : Norm) (rows : Observations) : Option (List Float) :=
  rows.zipIdx.mapM fun row => nearest? norm rows row.1 row.2

theorem nearest?_eq_some (hrows : rows.Searchable dims) (hx : rows[t]? = some x) :
    nearest? norm rows x t = some (nearest norm rows x t) := by
  refine (foldlM_eq_some (fun _ => True) trivial ?_).1
  rintro best - ⟨y, u⟩ hmem
  obtain ⟨hy, -⟩ := mem_others.1 hmem
  have hlen : x.length = y.length := by
    rw [hrows.length_getElem? hx, hrows.length_getElem? hy]
  refine ⟨?_, trivial⟩
  rw [compare?, PartialDistance.resume?_eq_some hlen]
  rfl

/-- **The naive search of a checked table stays in range.** -/
theorem bests?_eq_some (norm : Norm) (hrows : rows.Searchable dims) :
    bests? norm rows = some (bests norm rows) := by
  refine mapM_eq_some ?_
  rintro ⟨x, t⟩ hmem
  exact nearest?_eq_some hrows (List.mk_mem_zipIdx_iff_getElem?.1 hmem)

end Naive

/-! ### The fast search -/

namespace Fast

/-- The best accumulator of row `t` among the complete pairs with earlier rows. -/
def knownBest? (table : PairTable) (dims t : ℕ) : Option Float :=
  (List.range t).foldlM (fun best u => do
    let cell ← table.get? t u
    some (if cell.progress = dims then improve best cell.value else best)) Scalar.infinity

/-- Goes on with the pair of row `t`, which is `x`, and row `u`. -/
def visit? (norm : Norm) (rows : Observations) (dims : ℕ) (x : List Float) (t : ℕ) (state : Pass)
    (u : ℕ) : Option Pass := do
  let cell ← state.table.get? t u
  if u < t ∧ cell.progress = dims then some state
  else
    let y ← rows[u]?
    let cell ← cell.resume? norm x y state.best
    let table ← state.table.set? t u cell
    some ⟨table, improve state.best cell.value⟩

/-- The pass over row `t`. -/
def pass? (norm : Norm) (rows : Observations) (dims : ℕ) (table : PairTable) (t : ℕ) :
    Option Pass := do
  let x ← rows[t]?
  let best ← knownBest? table dims t
  ((List.range rows.length).filter (· != t)).foldlM (visit? norm rows dims x t) ⟨table, best⟩

/-- The state after all passes. -/
def sweep? (norm : Norm) (rows : Observations) (dims : ℕ) : Option Sweep :=
  (List.range rows.length).foldlM (fun state t => do
    let pass ← pass? norm rows dims state.table t
    some ⟨pass.table, state.bests.push pass.best⟩) ⟨.start rows.length, #[]⟩

variable {table : PairTable}

theorem knownBest?_eq_some (hsize : table.cells.size = PairTable.cellCount n)
    (hn : n * (n - 1) < UInt64.size) (ht : t < n) :
    knownBest? table dims t = some (knownBest table dims t) := by
  refine (foldlM_eq_some (fun _ => True) trivial ?_).1
  intro best _ u hu
  have hut := List.mem_range.1 hu
  refine ⟨?_, trivial⟩
  rw [PairTable.get?_eq_some hsize hut.ne' ht (hut.trans ht) hn]
  rfl

theorem visit?_eq_some (hrows : rows.Searchable dims)
    (hn : rows.length * (rows.length - 1) < UInt64.size) (hx : rows[t]? = some x)
    (hy : rows[u]? = some y) (hut : u ≠ t) {state : Pass}
    (hsize : state.table.cells.size = PairTable.cellCount rows.length) :
    visit? norm rows dims x t state u = some (visit norm dims x t state (y, u)) := by
  obtain ⟨ht, -⟩ := List.getElem?_eq_some_iff.1 hx
  obtain ⟨hu, -⟩ := List.getElem?_eq_some_iff.1 hy
  have hlen : x.length = y.length := by
    rw [hrows.length_getElem? hx, hrows.length_getElem? hy]
  rw [visit?, PairTable.get?_eq_some hsize hut.symm ht hu hn, visit]
  change (if _ then _ else _) = _
  -- a complete pair is left alone, and any other one is continued
  by_cases hknown : u < t ∧ (state.table.get t u).progress = dims
  · rw [if_pos hknown, if_pos hknown]
  · rw [if_neg hknown, if_neg hknown, hy]
    change (PartialDistance.resume? norm x y state.best _ >>= _) = _
    rw [PartialDistance.resume?_eq_some hlen]
    change (PairTable.set? _ t u _ >>= _) = _
    rw [PairTable.set?_eq_some hsize hut.symm ht hu hn]
    rfl

theorem pass?_eq_some (norm : Norm) (hrows : rows.Searchable dims)
    (hn : rows.length * (rows.length - 1) < UInt64.size) (hx : rows[t]? = some x)
    (hsize : table.cells.size = PairTable.cellCount rows.length) :
    pass? norm rows dims table t = some (pass norm rows dims table x t) ∧
      (pass norm rows dims table x t).table.cells.size = PairTable.cellCount rows.length := by
  obtain ⟨ht, -⟩ := List.getElem?_eq_some_iff.1 hx
  have hvisits : ((List.range rows.length).filter (· != t)).foldlM (visit? norm rows dims x t)
        ⟨table, knownBest table dims t⟩ = some (pass norm rows dims table x t) ∧
      (pass norm rows dims table x t).table.cells.size = PairTable.cellCount rows.length := by
    rw [← map_snd_others, List.foldlM_map]
    refine foldlM_eq_some
      (fun state : Pass => state.table.cells.size = PairTable.cellCount rows.length) hsize ?_
    rintro state hstate ⟨y, u⟩ hmem
    obtain ⟨hy, hut⟩ := mem_others.1 hmem
    exact ⟨visit?_eq_some hrows hn hx hy hut hstate, size_visit.trans hstate⟩
  refine ⟨?_, hvisits.2⟩
  rw [pass?, hx]
  change (knownBest? table dims t >>= _) = _
  rw [knownBest?_eq_some hsize hn ht]
  exact hvisits.1

/-- **The fast search of a checked table stays in range**, as long as the products that give the
places of pairs are words. -/
theorem sweep?_eq_some (norm : Norm) (hrows : rows.Searchable dims)
    (hn : rows.length * (rows.length - 1) < UInt64.size) :
    sweep? norm rows dims = some (sweep norm rows dims) := by
  rw [sweep?, List.range_eq_range', ← List.zipIdx_map_snd, List.foldlM_map]
  refine (foldlM_eq_some
    (fun state : Sweep => state.table.cells.size = PairTable.cellCount rows.length)
    (PairTable.size_start _) ?_).1
  rintro state hstate ⟨x, t⟩ hmem
  have hx := List.mk_mem_zipIdx_iff_getElem?.1 hmem
  obtain ⟨hpass, hsize⟩ := pass?_eq_some norm hrows hn hx hstate
  refine ⟨?_, hsize⟩
  rw [hpass]
  rfl

end Fast

/-! ### Minimum distances -/

/-- The best accumulators of a table, by the given search. -/
def bestsBy? (norm : Norm) (algorithm : Algorithm) (rows : Observations) (dims : ℕ) :
    Option (List Float) :=
  match algorithm with
  | .naive => Naive.bests? norm rows
  | .fast => do
    let state ← Fast.sweep? norm rows dims
    some state.bests.toList

/-- The minimum distances by the given search, after the check of the table.  The rows are collected
as references of two words before the search looks at its own limits. -/
def minDistancesBy? (norm : Norm) (algorithm : Algorithm) (rows : Observations) :
    Option (Except InputError (List Float)) :=
  match rows.searchShape with
  | .error e => some (.error e)
  | .ok shape => do
    Request.ask? ⟨shape.rows, 16⟩
    match algorithm.check shape with
    | .error e => some (.error e)
    | .ok _ => do
      Request.ask? ⟨shape.rows, 8⟩
      let bests ← bestsBy? norm algorithm rows shape.dims
      some (.ok (finishAll norm shape.dims bests))

/-- What a search asks for.  The distances take half the room of the rows. -/
def searchRequests (rows : Observations) : List Request :=
  match rows.searchShape with
  | .error _ => []
  | .ok shape => [⟨shape.rows, 16⟩]

theorem bestsBy?_eq_some (norm : Norm) {algorithm : Algorithm} (hrows : rows.Searchable dims)
    (hn : algorithm = .fast → rows.length * (rows.length - 1) < UInt64.size) :
    bestsBy? norm algorithm rows dims = some (bestsBy norm algorithm rows dims) := by
  cases algorithm with
  | naive => exact Naive.bests?_eq_some norm hrows
  | fast =>
    rw [bestsBy?, Fast.sweep?_eq_some norm hrows (hn rfl)]
    rfl

/-- Within the limits of a search, the places of pairs are words. -/
theorem Algorithm.mul_pred_lt_size {algorithm : Algorithm} {shape : Shape} {u : Unit}
    (h : algorithm.check shape = .ok u) (hfast : algorithm = .fast) :
    shape.rows * (shape.rows - 1) < UInt64.size := by
  subst hfast
  exact PairTable.mul_pred_lt_size_of_granted (PairTable.check_eq_ok_iff.1 h).2

/-- **A search gives up if and only if there is no room for its rows.**  Otherwise it reports what
is wrong with its table, or it stays in range. -/
theorem minDistancesBy?_eq (norm : Norm) (algorithm : Algorithm) (rows : Observations) :
    minDistancesBy? norm algorithm rows =
      if AllGranted (searchRequests rows) then some (minDistancesBy norm algorithm rows).result
      else none := by
  rw [minDistancesBy?, result_minDistancesBy_eq_map, Observations.shapeBy_eq_bind, searchRequests]
  cases hshape : rows.searchShape with
  | error e =>
    rw [if_pos allGranted_nil]
    rfl
  | ok shape =>
    obtain ⟨hlen, hrows⟩ := Observations.searchShape_eq_ok_iff.1 hshape
    by_cases hroom : (Request.mk shape.rows 16).Granted
    · have hhalf : (Request.mk shape.rows 8).Granted :=
        hroom.mono (Nat.le_refl _) (by decide)
      simp only [Request.ask?_bind, allGranted_cons, allGranted_nil, hroom, hhalf, and_true,
        ↓reduceIte, Except.bind]
      cases hcheck : algorithm.check shape with
      | error e => rfl
      | ok u =>
        have hn := hlen ▸ Algorithm.mul_pred_lt_size hcheck
        rw [bestsBy?_eq_some norm hrows hn]
        rfl
    · simp only [Request.ask?_bind, allGranted_cons, hroom, false_and, ↓reduceIte]

end Proximity
