import Proximity.Norm.Variants
import Proximity.Proofs.Search.FastRun

/-!
# The table of pairs during a run

The cell of a pair changes at most twice: when the pass over the smaller row visits the larger one,
and when the pass over the larger row visits the smaller one.  In between it stands after some first
components of the pair, and none of them is folded twice.

* `Fast.get_visit_cases` : what a visit does to the cell of a pair.
* `Fast.PairInvariant` : what a cell holds at a point of a run, and `Fast.pairInvariant_during`.
* `Fast.progress_le_during` : progress is not lost.
* `Fast.getElem?_cells_during` : **the invariant of the table**, for every norm.
-/

namespace Proximity

namespace Fast

variable {norm : Norm} {rows : Observations} {dims t k u lo hi : ℕ} {x y : List Float}

/-! ### One pair -/

/-- What a visit does to the cell of a pair: it goes on from the smaller row's side, or from the
larger row's side unless the pair is complete, or it belongs to another pair. -/
theorem get_visit_cases (norm : Norm) (dims : ℕ) (x y : List Float) {state : Pass} (hlt : lo < hi)
    (hut : u ≠ t) (hkey : PairTable.key t u < state.table.cells.size) :
    (t = lo ∧ u = hi ∧ (visit norm dims x t state (y, u)).table.get lo hi =
      (state.table.get lo hi).resume norm x y state.best) ∨
    (t = hi ∧ u = lo ∧
      ((state.table.get lo hi).progress = dims ∧
        (visit norm dims x t state (y, u)).table.get lo hi = state.table.get lo hi ∨
      (visit norm dims x t state (y, u)).table.get lo hi =
        (state.table.get lo hi).resume norm x y state.best)) ∨
    (PairTable.key t u ≠ PairTable.key lo hi ∧
      (visit norm dims x t state (y, u)).table.get lo hi = state.table.get lo hi) := by
  by_cases hpair : PairTable.key t u = PairTable.key lo hi
  · -- only the visit from the larger row's side can pass the pair over
    rcases PairTable.eq_of_key_eq hut.symm hlt hpair with ⟨rfl, rfl⟩ | ⟨rfl, rfl⟩
    · rcases visit_cases norm dims x y hkey with
        ⟨hearlier, -, -⟩ | ⟨-, hget, -⟩
      · omega
      · exact .inl ⟨rfl, rfl, hget⟩
    · refine .inr (.inl ⟨rfl, rfl, ?_⟩)
      rw [PairTable.get_comm state.table, PairTable.get_comm (visit _ _ _ _ _ _).table]
      rcases visit_cases norm dims x y hkey with
        ⟨-, hc, hstate⟩ | ⟨-, hget, -⟩
      · exact .inl ⟨hc, by rw [hstate]⟩
      · exact .inr hget
  · exact .inr (.inr ⟨hpair, get_visit_of_ne hpair⟩)

/-- Visits to other pairs leave the cell of a pair alone. -/
theorem get_foldl_visit {i j : ℕ} (visits : List (List Float × ℕ)) (state : Pass)
    (h : ∀ other ∈ visits, PairTable.key t other.2 ≠ PairTable.key i j) :
    (visits.foldl (visit norm dims x t) state).table.get i j = state.table.get i j := by
  induction visits generalizing state with
  | nil => rfl
  | cons other visits ih =>
    obtain ⟨hother, hvisits⟩ := List.forall_mem_cons.1 h
    rw [List.foldl_cons, ih _ hvisits]
    exact get_visit_of_ne hother

/-- A pass does not change the cell of a pair without its row. -/
theorem get_during_of_ne (hlt : lo < hi) (hlo : t ≠ lo) (hhi : t ≠ hi) (k : ℕ) :
    (during norm rows dims t k).table.get lo hi = (tableBefore norm rows dims t).get lo hi := by
  refine get_foldl_visit _ _ ?_
  rintro ⟨y, u⟩ hmem hkey
  obtain ⟨-, hu⟩ := mem_take_others.1 hmem
  rcases PairTable.eq_of_key_eq (show t ≠ u by omega) hlt hkey with ⟨h, -⟩ | ⟨h, -⟩
  · exact hlo h
  · exact hhi h

/-- A pass does not change the cell of a pair with an earlier row before it comes to this row. -/
theorem get_during_of_le (hlt : lo < t) (hk : k ≤ lo) :
    (during norm rows dims t k).table.get lo t = (tableBefore norm rows dims t).get lo t := by
  refine get_foldl_visit _ _ ?_
  rintro ⟨y, u⟩ hmem hkey
  obtain ⟨-, hu⟩ := mem_take_others.1 hmem
  rcases PairTable.eq_of_key_eq (show t ≠ u by omega) hlt hkey with ⟨h, -⟩ | ⟨-, h⟩ <;> omega

/-! ### The invariant of a pair -/

/-- What the cell of the rows `lo` and `hi`, which are `x` and `y`, holds after `k` visits of the
pass over row `t`. -/
structure PairInvariant (norm : Norm) (x y : List Float) (lo hi t k : ℕ)
    (cell : PartialDistance) : Prop where
  /-- Nothing is folded before the pass over the smaller row comes to the larger one. -/
  untouched : t < lo ∨ t = lo ∧ k < hi → cell = .start
  /-- The cell is a fold of first components.  Those that are folded before the pass over the larger
  row comes to the smaller one are differences of the smaller row from the larger one. -/
  folded : ∃ j ≤ cell.progress, (t < hi ∨ t = hi ∧ k ≤ lo → j = cell.progress) ∧
    cell.IsPrefix norm (mixedDifferences j x y)

namespace PairInvariant

variable {cell : PartialDistance}

theorem start (norm : Norm) (x y : List Float) (lo hi t k : ℕ) :
    PairInvariant norm x y lo hi t k .start :=
  ⟨fun _ => rfl, 0, Nat.le_refl _, fun _ => rfl, PartialDistance.isPrefix_start _ _⟩

/-- A later point promises no more about a cell that does not change. -/
theorem later {t' k' : ℕ} (h : PairInvariant norm x y lo hi t k cell)
    (hlo : t' < lo ∨ t' = lo ∧ k' < hi → t < lo ∨ t = lo ∧ k < hi)
    (hhi : t' < hi ∨ t' = hi ∧ k' ≤ lo → t < hi ∨ t = hi ∧ k ≤ lo) :
    PairInvariant norm x y lo hi t' k' cell := by
  obtain ⟨j, hj, hjeq, hfold⟩ := h.folded
  exact ⟨fun hc => h.untouched (hlo hc), j, hj, fun hc => hjeq (hhi hc), hfold⟩

/-- Before the pass over the larger row comes to the smaller one, the cell is a fold from the
smaller row's side. -/
theorem isPrefix (h : PairInvariant norm x y lo hi t k cell)
    (hc : t < hi ∨ t = hi ∧ k ≤ lo) : cell.IsPrefix norm (differences x y) := by
  obtain ⟨j, -, hj, hfold⟩ := h.folded
  obtain rfl := hj hc
  exact PartialDistance.IsPrefix.mixed_iff.1 hfold

/-- The visit from the smaller row's side. -/
theorem resume_lower (h : PairInvariant norm x y lo hi lo k cell) (hlt : lo < hi)
    (hk : hi = k + 1) (bound : Float) :
    PairInvariant norm x y lo hi lo (k + 1) (cell.resume norm x y bound) := by
  have hfold : (cell.resume norm x y bound).IsPrefix norm (differences x y) :=
    ((h.isPrefix (.inl hlt)).resume rfl rfl bound).1
  refine ⟨by omega, _, Nat.le_refl _, fun _ => rfl, ?_⟩
  exact PartialDistance.IsPrefix.mixed_iff.2 hfold

/-- The visit from the larger row's side goes on with the differences the other way round. -/
theorem resume_upper (h : PairInvariant norm x y lo hi hi lo cell) (hlt : lo < hi)
    (bound : Float) :
    PairInvariant norm x y lo hi hi (lo + 1) (cell.resume norm y x bound) ∧
      (cell.resume norm y x bound).IsPrefix norm (mixedDifferences cell.progress x y) ∧
      ((cell.resume norm y x bound).progress = (mixedDifferences cell.progress x y).length ∨
        ¬ (cell.resume norm y x bound).value < bound) := by
  have hcell : cell.IsPrefix norm (mixedDifferences cell.progress x y) :=
    PartialDistance.IsPrefix.mixed_iff.2 (h.isPrefix (.inr ⟨rfl, Nat.le_refl _⟩))
  obtain ⟨hfold, hstop⟩ := hcell.resume (x := y) (y := x) (by simp [Nat.min_comm])
    (drop_mixedDifferences _ x y).symm bound
  refine ⟨⟨by omega, cell.progress, ?_, by omega, hfold⟩, hfold, hstop⟩
  exact PartialDistance.progress_le_resume y x

end PairInvariant

/-- **What the cell of a pair holds at every point of a run.** -/
theorem pairInvariant_during (hlt : lo < hi) (hx : rows[lo]? = some x) (hy : rows[hi]? = some y)
    (ht : t < rows.length) (hk : k ≤ rows.length - 1) :
    PairInvariant norm x y lo hi t k ((during norm rows dims t k).table.get lo hi) := by
  refine table_induction (motive := fun t k table =>
    PairInvariant norm x y lo hi t k (table.get lo hi)) ?_ ?_ ?_ ht hk
  · rw [PairTable.get_start]
    exact .start ..
  · -- the visit is one of the two to this pair, or the cell does not change
    intro t k x' u y' hx' hy' hu ih
    have hkey : PairTable.key t u < (during norm rows dims t k).table.cells.size :=
      key_lt_size_during hx' hy' hu
    rcases get_visit_cases norm dims x' y' hlt (show u ≠ t by omega) hkey with
      ⟨rfl, rfl, hget⟩ | ⟨rfl, rfl, hc⟩ | ⟨-, hget⟩
    · obtain rfl : x' = x := Option.some.inj (hx'.symm.trans hx)
      obtain rfl : y' = y := Option.some.inj (hy'.symm.trans hy)
      rw [hget]
      exact ih.resume_lower hlt (by omega) _
    · obtain rfl : x' = y := Option.some.inj (hx'.symm.trans hy)
      obtain rfl : y' = x := Option.some.inj (hy'.symm.trans hx)
      rcases hc with ⟨-, hget⟩ | hget
      · rw [hget]
        exact ih.later (by omega) (by omega)
      · obtain rfl : k = u := by omega
        rw [hget]
        exact (ih.resume_upper hlt _).1
    · rw [hget]
      exact ih.later (by omega) (by omega)
  · intro t _ ih
    exact ih.later (by omega) (by omega)

/-! ### Progress -/

theorem progress_le_visit {state : Pass} (hlt : lo < hi) (hut : u ≠ t)
    (hkey : PairTable.key t u < state.table.cells.size) :
    (state.table.get lo hi).progress ≤
      ((visit norm dims x t state (y, u)).table.get lo hi).progress := by
  rcases get_visit_cases norm dims x y hlt hut hkey with
    ⟨-, -, hget⟩ | ⟨-, -, ⟨-, hget⟩ | hget⟩ | ⟨-, hget⟩ <;> rw [hget]
  · exact PartialDistance.progress_le_resume x y
  · exact PartialDistance.progress_le_resume x y

/-- Progress is not lost from one point to a later one. -/
theorem progress_le_during {t' k' : ℕ} (hlt : lo < hi) (ht : t < rows.length)
    (hk : k ≤ rows.length - 1) (hk' : k' ≤ rows.length - 1) (hle : t' < t ∨ t' = t ∧ k' ≤ k) :
    ((during norm rows dims t' k').table.get lo hi).progress ≤
      ((during norm rows dims t k).table.get lo hi).progress := by
  refine table_induction (motive := fun t k table => t' < t ∨ t' = t ∧ k' ≤ k →
    ((during norm rows dims t' k').table.get lo hi).progress ≤ (table.get lo hi).progress)
    ?_ ?_ ?_ ht hk hle
  · intro hle
    obtain ⟨rfl, rfl⟩ : t' = 0 ∧ k' = 0 := by omega
    exact Nat.le_refl _
  · -- the earlier point is the new one itself, or it was earlier before the visit
    intro t k x u y hx hy hu ih hle
    by_cases hlast : t' = t ∧ k' = k + 1
    · obtain ⟨rfl, rfl⟩ := hlast
      rw [during_succ hx hy hu]
    · refine Nat.le_trans (ih (by omega)) ?_
      exact progress_le_visit hlt (show u ≠ t by omega) (key_lt_size_during hx hy hu)
  · intro t ht ih hle
    by_cases hnext : t' = t + 1
    · obtain rfl := hnext
      obtain rfl : k' = 0 := by omega
      change ((tableBefore norm rows dims (t + 1)).get lo hi).progress ≤ _
      rw [tableBefore_succ ht]
    · exact ih (by omega)

/-! ### The table -/

/-- **The invariant of the table**, for every norm.  At every point of a run over a valid table,
after `k` visits of the pass over row `t`, each pair `lo < hi` has a cell, and this cell is the fold
of the first components of the pair, each folded once and in index order: up to some component `j`
of the differences of row `lo` from row `hi`, and from there on of row `hi` from row `lo`.  Before
the pass over row `hi` comes to row `lo` there is no such change of order, and before the pass over
row `lo` comes to row `hi` nothing is folded.  A pass leaves the pairs without its row alone, and
progress is not lost.  If the norm does not look at the order of operands, the cell is the fold of
first components in either order. -/
theorem getElem?_cells_during (norm : Norm) {shape : Shape}
    (hshape : rows.searchShape = .ok shape) (hlt : lo < hi) (hx : rows[lo]? = some x)
    (hy : rows[hi]? = some y) (ht : t < rows.length) (hk : k < rows.length) :
    ∃ cell,
      (during norm rows shape.dims t k).table.cells[PairTable.key lo hi]? = some cell ∧
      cell.progress ≤ shape.dims ∧
      (∃ j ≤ cell.progress, (t < hi ∨ t = hi ∧ k ≤ lo → j = cell.progress) ∧
        cell.value = norm.fold ((mixedDifferences j x y).take cell.progress)) ∧
      (t < lo ∨ t = lo ∧ k < hi → cell = .start) ∧
      (t ≠ lo → t ≠ hi → cell = (tableBefore norm rows shape.dims t).get lo hi) ∧
      (∀ t' k', t' < t ∨ t' = t ∧ k' ≤ k → k' < rows.length →
        ((during norm rows shape.dims t' k').table.get lo hi).progress ≤ cell.progress) ∧
      (norm.SwapEven →
        cell.value = norm.fold ((differences x y).take cell.progress) ∧
        cell.value = norm.fold ((differences y x).take cell.progress)) := by
  obtain ⟨-, hrows⟩ := Observations.searchShape_eq_ok_iff.1 hshape
  have hhi : hi < rows.length := (List.getElem?_eq_some_iff.1 hy).1
  have hk' : k ≤ rows.length - 1 := Nat.le_sub_one_of_lt hk
  have hinv : PairInvariant norm x y lo hi t k
      ((during norm rows shape.dims t k).table.get lo hi) :=
    pairInvariant_during hlt hx hy ht hk'
  obtain ⟨j, hj, hjeq, hfold⟩ := hinv.folded
  refine ⟨_, PairTable.getElem?_key ?_, ?_, ⟨j, hj, hjeq, hfold.value_eq⟩, hinv.untouched, ?_, ?_,
    ?_⟩
  · rw [size_during ht hk']
    exact PairTable.key_lt_cellCount hlt hhi
  · have hlen := hfold.progress_le
    rwa [length_mixedDifferences, hrows.length_getElem? hx, hrows.length_getElem? hy,
      Nat.min_self] at hlen
  · exact fun hlo hhi => get_during_of_ne hlt hlo hhi k
  · exact fun t' k' hle hk'' => progress_le_during hlt ht hk' (Nat.le_sub_one_of_lt hk'') hle
  · intro hswap
    constructor
    · rw [hfold.value_eq, hswap.fold_take_mixed]
    · rw [hfold.value_eq, hswap.fold_take_mixed, hswap.fold_take_comm]

/-- The pair of the first and the last of three rows, when the pass over the middle row is halfway,
for a one-sided norm. -/
theorem getElem?_cells_during_excess :
    Observations.searchShape [[0, 4], [3, 1], [2, 2]] = .ok ⟨3, 2⟩ ∧
    ∃ cell,
      (during .excess [[0, 4], [3, 1], [2, 2]] 2 1 1).table.cells[PairTable.key 0 2]? = some cell ∧
      cell.progress ≤ 2 ∧
      (∃ j ≤ cell.progress, (1 < 2 ∨ 1 = 2 ∧ 1 ≤ 0 → j = cell.progress) ∧
        cell.value =
          Norm.excess.fold ((mixedDifferences j [0, 4] [2, 2]).take cell.progress)) := by
  have hshape : Observations.searchShape [[0, 4], [3, 1], [2, 2]] = .ok ⟨3, 2⟩ := by decide
  have hx : ([[0, 4], [3, 1], [2, 2]] : Observations)[0]? = some [0, 4] := rfl
  have hy : ([[0, 4], [3, 1], [2, 2]] : Observations)[2]? = some [2, 2] := rfl
  obtain ⟨cell, hcell, hprogress, hfold, -⟩ := getElem?_cells_during .excess hshape
    (show 0 < 2 by decide) hx hy (show 1 < 3 by decide) (show 1 < 3 by decide)
  dsimp only at hcell hprogress
  exact ⟨hshape, cell, hcell, hprogress, hfold⟩

end Fast

end Proximity
