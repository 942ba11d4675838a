import Proximity.Proofs.Observations
import Proximity.Proofs.PartialDistance
import Proximity.Proofs.Search.Basic
import Proximity.Proofs.Search.PairTable
import Proximity.Search.Fast

/-!
# The run of the fast search

A run of the fast search is a sequence of visits: the pass over each row in turn, and in each pass
the visits to the other rows in order.  A *point* of the run is a row `t` and a number `k` of
visits of its pass that are done.

* `Fast.during` : the state of a pass at a point.
* `Fast.during_succ`, `Fast.tableBefore_succ` : from one point to the next one.
* `Fast.toList_bests_sweep` : the best accumulators of a search are those at the ends of its passes.
* `Fast.visit_cases` : **what one visit can do**.
* `Fast.table_induction` : what holds of the first table and is kept by visits holds at every point.
-/

namespace Proximity

namespace Fast

/-! ### The points of a run -/

section Points

variable (norm : Norm) (rows : Observations) (dims : ℕ)

/-- The table before the pass over row `t`. -/
def tableBefore (t : ℕ) : PairTable := (sweepOver norm rows dims (rows.zipIdx.take t)).table

/-- The state of the pass over row `t` after its first `k` visits. -/
def during (t k : ℕ) : Pass :=
  ((others rows t).take k).foldl (visit norm dims (rows.getD t []) t)
    ⟨tableBefore norm rows dims t, knownBest (tableBefore norm rows dims t) dims t⟩

end Points

variable {norm : Norm} {rows : Observations} {dims t k u : ℕ} {x y : List Float}

theorem getD_of_getElem? (hx : rows[t]? = some x) : rows.getD t [] = x := by
  rw [List.getD_eq_getElem?_getD, hx]
  rfl

/-- The next visit of a pass. -/
theorem during_succ (hx : rows[t]? = some x) (hy : rows[u]? = some y)
    (hu : u < t ∧ u = k ∨ t < u ∧ u = k + 1) :
    during norm rows dims t (k + 1) = visit norm dims x t (during norm rows dims t k) (y, u) := by
  rw [during, List.take_add_one, getElem?_others_eq_some_iff.2 ⟨hy, hu⟩, List.foldl_append,
    getD_of_getElem? hx, during, getD_of_getElem? hx]
  rfl

/-- A pass ends when all other rows are visited. -/
theorem pass_eq_during (hx : rows[t]? = some x) :
    pass norm rows dims (tableBefore norm rows dims t) x t =
      during norm rows dims t (rows.length - 1) := by
  obtain ⟨ht, -⟩ := List.getElem?_eq_some_iff.1 hx
  rw [during, List.take_of_length_le (Nat.le_of_eq (length_others ht)), getD_of_getElem? hx]
  rfl

theorem sweepOver_succ (hx : rows[t]? = some x) :
    sweepOver norm rows dims (rows.zipIdx.take (t + 1)) =
      ⟨(during norm rows dims t (rows.length - 1)).table,
        (sweepOver norm rows dims (rows.zipIdx.take t)).bests.push
          (during norm rows dims t (rows.length - 1)).best⟩ := by
  rw [← pass_eq_during hx, List.take_add_one, List.getElem?_zipIdx, hx, Nat.zero_add, sweepOver,
    List.foldl_append]
  rfl

/-- The pass over the next row begins with the table of the pass before it. -/
theorem tableBefore_succ (ht : t < rows.length) :
    tableBefore norm rows dims (t + 1) = (during norm rows dims t (rows.length - 1)).table := by
  rw [tableBefore, sweepOver_succ (List.getElem?_eq_getElem ht)]

theorem toList_bests_sweepOver (ht : t ≤ rows.length) :
    (sweepOver norm rows dims (rows.zipIdx.take t)).bests.toList =
      (List.range t).map fun s => (during norm rows dims s (rows.length - 1)).best := by
  induction t with
  | zero => rfl
  | succ t ih =>
    rw [sweepOver_succ (List.getElem?_eq_getElem ht), Array.toList_push, ih (Nat.le_of_lt ht),
      List.range_succ, List.map_append]
    rfl

/-- The best accumulators of a search are those at the ends of its passes. -/
theorem toList_bests_sweep (norm : Norm) (rows : Observations) (dims : ℕ) :
    (sweep norm rows dims).bests.toList =
      (List.range rows.length).map fun t => (during norm rows dims t (rows.length - 1)).best := by
  rw [← toList_bests_sweepOver (Nat.le_refl _), List.take_of_length_le (by simp)]
  rfl

/-! ### One visit -/

variable {state : Pass}

/-- **What a visit does.**  A complete pair with an earlier row is passed over.  The fold of any
other pair goes on against the best accumulator so far, and its cell is written back. -/
theorem visit_cases (norm : Norm) (dims : ℕ) (x y : List Float)
    (hkey : PairTable.key t u < state.table.cells.size) :
    (u < t ∧ (state.table.get t u).progress = dims ∧
      visit norm dims x t state (y, u) = state) ∨
    (¬ (u < t ∧ (state.table.get t u).progress = dims) ∧
      (visit norm dims x t state (y, u)).table.get t u =
        (state.table.get t u).resume norm x y state.best ∧
      (visit norm dims x t state (y, u)).best =
        improve state.best ((state.table.get t u).resume norm x y state.best).value) := by
  by_cases hc : u < t ∧ (state.table.get t u).progress = dims
  · refine .inl ⟨hc.1, hc.2, ?_⟩
    simp only [visit, hc, and_self, ↓reduceIte]
  · refine .inr ⟨hc, ?_, ?_⟩
    · simp only [visit, hc, ↓reduceIte]
      exact PairTable.get_set_self hkey
    · simp only [visit, hc, ↓reduceIte]

/-- A visit leaves the other pairs alone. -/
theorem get_visit_of_ne {i j : ℕ} (h : PairTable.key t u ≠ PairTable.key i j) :
    (visit norm dims x t state (y, u)).table.get i j = state.table.get i j := by
  by_cases hc : u < t ∧ (state.table.get t u).progress = dims
  · simp only [visit, hc, and_self, ↓reduceIte]
  · simp only [visit, hc, ↓reduceIte]
    exact PairTable.get_set_of_ne h

@[simp] theorem size_visit :
    (visit norm dims x t state (y, u)).table.cells.size = state.table.cells.size := by
  by_cases hc : u < t ∧ (state.table.get t u).progress = dims
  · simp only [visit, hc, and_self, ↓reduceIte]
  · simp only [visit, hc, ↓reduceIte, PairTable.size_set]

/-! ### All points -/

/-- What holds of the table before the first pass, is kept by every visit, and does not depend on
where one pass ends and the next one begins, holds at every point. -/
theorem table_induction {motive : ℕ → ℕ → PairTable → Prop}
    (start : motive 0 0 (.start rows.length))
    (visit : ∀ t k x u y, rows[t]? = some x → rows[u]? = some y →
      (u < t ∧ u = k ∨ t < u ∧ u = k + 1) → motive t k (during norm rows dims t k).table →
      motive t (k + 1) (visit norm dims x t (during norm rows dims t k) (y, u)).table)
    (next : ∀ t, t < rows.length →
      motive t (rows.length - 1) (during norm rows dims t (rows.length - 1)).table →
      motive (t + 1) 0 (during norm rows dims t (rows.length - 1)).table)
    (ht : t < rows.length) (hk : k ≤ rows.length - 1) :
    motive t k (during norm rows dims t k).table := by
  -- within a pass the induction is on the visits
  have hpass : ∀ {t}, t < rows.length → motive t 0 (during norm rows dims t 0).table →
      ∀ {k}, k ≤ rows.length - 1 → motive t k (during norm rows dims t k).table := by
    intro t ht h0 k hk
    induction k with
    | zero => exact h0
    | succ k ih =>
      obtain ⟨u, y, hy, hu⟩ := exists_other ht hk
      have hx := List.getElem?_eq_getElem ht
      rw [during_succ hx hy hu]
      exact visit t k _ u y hx hy hu (ih (by omega))
  refine hpass ht ?_ hk
  induction t with
  | zero => exact start
  | succ t ih =>
    have ht' : t < rows.length := Nat.lt_of_succ_lt ht
    have hend := hpass ht' (ih ht') (Nat.le_refl _)
    change motive (t + 1) 0 (tableBefore norm rows dims (t + 1))
    rw [tableBefore_succ ht']
    exact next t ht' hend

@[simp] theorem size_during (ht : t < rows.length) (hk : k ≤ rows.length - 1) :
    (during norm rows dims t k).table.cells.size = PairTable.cellCount rows.length := by
  refine table_induction (motive := fun _ _ table =>
    table.cells.size = PairTable.cellCount rows.length) ?_ ?_ ?_ ht hk
  · exact PairTable.size_start _
  · intro t k x u y _ _ _ ih
    rw [size_visit, ih]
  · exact fun _ _ ih => ih

/-- Every visit is to a pair that has a place. -/
theorem key_lt_size_during (hx : rows[t]? = some x) (hy : rows[u]? = some y)
    (hu : u < t ∧ u = k ∨ t < u ∧ u = k + 1) :
    PairTable.key t u < (during norm rows dims t k).table.cells.size := by
  obtain ⟨ht, -⟩ := List.getElem?_eq_some_iff.1 hx
  obtain ⟨hu', -⟩ := List.getElem?_eq_some_iff.1 hy
  rw [size_during ht (by omega)]
  exact PairTable.key_lt_cellCount_of_ne (by omega) ht hu'

end Fast

end Proximity
