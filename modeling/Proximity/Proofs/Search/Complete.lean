import Proximity.Proofs.Search.FastNearest
import Proximity.Proofs.Search.Naive

/-!
# Only complete accumulators win

A search never asks whether a comparison is complete before it keeps its accumulator.  It need not:
a comparison stops because it is complete or because its accumulator is not below the best one, and
in the second case the accumulator is not kept.  This holds for every norm, also for one whose
accumulators decrease or recover from a NaN, since no law is used.

* `Naive.exists_nearest_eq` : the best accumulator of a scan is infinity, or the accumulator over
  all components of the row and another one.
* `Fast.Settled`, `Fast.settled_visit`, `Fast.settled_during` : the best accumulator of a pass is
  infinity, or the value of a complete cell, at every point of the pass.
* `finished_complete` : **no incomplete accumulator is ever finished**, by either search.
-/

namespace Proximity

theorem improve_eq_or (best value : Float) :
    improve best value = best ∨ improve best value = value := by
  by_cases hv : value < best
  · exact .inr (improve_of_lt hv)
  · exact .inl (improve_of_not_lt hv)

/-! ### The naive search -/

namespace Naive

/-- A comparison is complete, or it changes nothing. -/
theorem compare_eq_or (norm : Norm) (x : List Float) (best : Float) (y : List Float) :
    compare norm x best y = best ∨ compare norm x best y = norm.accumulated x y := by
  obtain ⟨hfold, hstop⟩ :=
    (PartialDistance.isPrefix_start norm (differences x y)).resume rfl rfl best
  rcases hstop with hcomplete | hnot
  · rw [compare, hfold.value_of_complete hcomplete]
    exact improve_eq_or best _
  · exact .inl (improve_of_not_lt hnot)

/-- The best accumulator of a scan is infinity or that of a complete comparison. -/
theorem exists_nearest_eq (norm : Norm) (rows : Observations) (x : List Float) (t : ℕ) :
    nearest norm rows x t = Scalar.infinity ∨
      ∃ u y, u ≠ t ∧ rows[u]? = some y ∧ nearest norm rows x t = norm.accumulated x y := by
  have hstep : ∀ (best : Float) (other : List Float × ℕ),
      compare norm x best other.1 = best ∨
        compare norm x best other.1 = norm.accumulated x other.1 :=
    fun best other => compare_eq_or norm x best other.1
  rcases foldl_eq_or_exists hstep (others rows t) Scalar.infinity with
    hinf | ⟨⟨y, u⟩, hmem, heq⟩
  · exact .inl hinf
  · obtain ⟨hy, hut⟩ := mem_others.1 hmem
    exact .inr ⟨u, y, hut, hy, heq⟩

end Naive

/-! ### The fast search -/

namespace Fast

/-- Row `u`, which is `y`, has won the pass over row `t`, which is `x`: its pair is complete, and
its accumulator is the best one. -/
structure Won (norm : Norm) (rows : Observations) (dims t : ℕ) (x : List Float) (state : Pass)
    (u : ℕ) (y : List Float) : Prop where
  /-- It is another row. -/
  ne : u ≠ t
  /-- It is a row of the table. -/
  getElem?_eq : rows[u]? = some y
  /-- Its pair is complete. -/
  progress_eq : (state.table.get t u).progress = dims
  /-- Its cell holds the best accumulator. -/
  value_eq : (state.table.get t u).value = state.best
  /-- The best accumulator is over all components of the two rows. -/
  best_eq : state.best = passValue norm (tableBefore norm rows dims t) t x u y

/-- At a point of the pass over row `t`, which is `x`, no row is known to be near, or one has
won. -/
def Settled (norm : Norm) (rows : Observations) (dims t : ℕ) (x : List Float) (state : Pass) :
    Prop :=
  state.best = Scalar.infinity ∨ ∃ u y, Won norm rows dims t x state u y

variable {norm : Norm} {rows : Observations} {dims t k u : ℕ} {x y : List Float}

/-- Before the first visit, an earlier row with a complete pair may have won. -/
theorem settled_start (hrows : rows.Searchable dims) (hx : rows[t]? = some x) :
    Settled norm rows dims t x (during norm rows dims t 0) := by
  have ht := (List.getElem?_eq_some_iff.1 hx).1
  have hbest : (during norm rows dims t 0).best =
      knownBest (tableBefore norm rows dims t) dims t := rfl
  rw [knownBest_eq] at hbest
  rcases foldl_eq_or_exists (g := id) improve_eq_or
    (((List.range t).filter fun u => ((tableBefore norm rows dims t).get t u).progress = dims).map
      fun u => ((tableBefore norm rows dims t).get t u).value) Scalar.infinity with
    hinf | ⟨v, hv, heq⟩
  · exact .inl (hbest.trans hinf)
  · obtain ⟨u, hu, rfl⟩ := List.mem_map.1 hv
    rw [List.mem_filter, List.mem_range, decide_eq_true_eq] at hu
    obtain ⟨hut, hc⟩ := hu
    have hy := List.getElem?_eq_getElem (Nat.lt_trans hut ht)
    have hvalue := hbest.trans heq
    refine .inr ⟨u, _, Nat.ne_of_lt hut, hy, hc, hvalue.symm, ?_⟩
    rw [PairTable.get_comm] at hc
    rw [hvalue, id, PairTable.get_comm]
    exact value_eq_passValue hrows hx hy hut hc

/-- A visit does not change a complete cell. -/
theorem get_visit_of_complete {state : Pass} {w : ℕ} (hut : t ≠ u) (hwt : t ≠ w)
    (hkey : PairTable.key t u < state.table.cells.size) (hx : x.length = dims)
    (hc : (state.table.get t w).progress = dims) :
    (visit norm dims x t state (y, u)).table.get t w = state.table.get t w := by
  by_cases hwu : u = w
  · subst hwu
    rcases visit_cases norm dims x y hkey with ⟨-, -, hsame⟩ | ⟨-, hget, -⟩
    · rw [hsame]
    · rw [hget, PartialDistance.resume_of_complete]
      rw [hx, hc]
  · exact get_visit_of_ne fun heq => hwu (PairTable.key_right_inj hut hwt heq)

/-- A row that has won stays the winner if the best accumulator does not change. -/
theorem Won.visit {state : Pass} {w : ℕ} {z : List Float} (h : Won norm rows dims t x state w z)
    (hut : t ≠ u) (hkey : PairTable.key t u < state.table.cells.size) (hx : x.length = dims)
    (hbest : (visit norm dims x t state (y, u)).best = state.best) :
    Won norm rows dims t x (visit norm dims x t state (y, u)) w z := by
  have hget : (Fast.visit norm dims x t state (y, u)).table.get t w = state.table.get t w :=
    get_visit_of_complete hut h.ne.symm hkey hx h.progress_eq
  refine ⟨h.ne, h.getElem?_eq, ?_, ?_, ?_⟩
  · rw [hget, h.progress_eq]
  · rw [hget, hbest, h.value_eq]
  · rw [hbest, h.best_eq]

/-- **One visit** leaves the best accumulator with the row that has won, or the row that it visits
wins. -/
theorem settled_visit (hrows : rows.Searchable dims) (hx : rows[t]? = some x)
    (hy : rows[u]? = some y) (hu : u < t ∧ u = k ∨ t < u ∧ u = k + 1)
    (h : Settled norm rows dims t x (during norm rows dims t k)) :
    Settled norm rows dims t x (visit norm dims x t (during norm rows dims t k) (y, u)) := by
  have hkey : PairTable.key t u < (during norm rows dims t k).table.cells.size :=
    key_lt_size_during hx hy hu
  have hxlen := hrows.length_getElem? hx
  have hut : t ≠ u := by omega
  have hkept : (visit norm dims x t (during norm rows dims t k) (y, u)).best =
      (during norm rows dims t k).best →
      Settled norm rows dims t x (visit norm dims x t (during norm rows dims t k) (y, u)) := by
    intro hbest
    refine h.imp hbest.trans ?_
    rintro ⟨w, z, hw⟩
    exact ⟨w, z, hw.visit hut hkey hxlen hbest⟩
  rcases visit_cases norm dims x y hkey with ⟨-, -, hsame⟩ | ⟨-, hget, hbest⟩
  · exact hkept (by rw [hsame])
  · obtain ⟨hfold, hstop⟩ := isPrefix_visit hx hy hu (during norm rows dims t k).best
    by_cases hlt : (((during norm rows dims t k).table.get t u).resume norm x y
        (during norm rows dims t k).best).value < (during norm rows dims t k).best
    · -- an accumulator below the best one is complete
      have hcomplete := hstop.resolve_right (not_not_intro hlt)
      rw [improve_of_lt hlt] at hbest
      refine .inr ⟨u, y, hut.symm, hy, ?_, ?_, ?_⟩
      · rw [hget, hcomplete, length_passDifferences, hxlen, hrows.length_getElem? hy, Nat.min_self]
      · rw [hget, hbest]
      · rw [hbest, hfold.value_of_complete hcomplete, passValue_eq_fold]
    · exact hkept (hbest.trans (improve_of_not_lt hlt))

/-- **At every point of a pass**, the best accumulator is infinity, or that of a complete pair. -/
theorem settled_during (hrows : rows.Searchable dims) (hx : rows[t]? = some x)
    (hk : k ≤ rows.length - 1) : Settled norm rows dims t x (during norm rows dims t k) := by
  have ht := (List.getElem?_eq_some_iff.1 hx).1
  induction k with
  | zero => exact settled_start hrows hx
  | succ k ih =>
    obtain ⟨u, y, hy, hu⟩ := exists_other ht hk
    rw [during_succ hx hy hu]
    exact settled_visit hrows hx hy hu (ih (Nat.le_of_succ_le hk))

end Fast

/-! ### Both searches -/

/-- **No incomplete accumulator is ever finished**, whatever the norm does.  Both searches finish
one accumulator for each row, in row order; the fast search does so within its limits.  That of the
naive search is infinity, or the accumulator over all components of the row and another one.  That
of the fast search is infinity, or the value of the cell of the row and another one, which is
complete at the end of the pass; it is over all components, too, where those that were folded before
the pass are taken from the side of the earlier row. -/
theorem finished_complete (norm : Norm) {rows : Observations} {shape : Shape}
    (hshape : rows.searchShape = .ok shape) :
    (Naive.minDistances norm rows = .ok (finishAll norm shape.dims (Naive.bests norm rows)) ∧
      (Naive.bests norm rows).length = rows.length ∧
      ∀ (t : ℕ) (x : List Float), rows[t]? = some x →
        ∃ best, (Naive.bests norm rows)[t]? = some best ∧
          (best = Scalar.infinity ∨
            ∃ (u : ℕ) (y : List Float), u ≠ t ∧ rows[u]? = some y ∧
              best = norm.accumulated x y)) ∧
    (rows.FitTable → (Fast.minDistances norm rows).result =
        .ok (finishAll norm shape.dims (Fast.sweep norm rows shape.dims).bests.toList)) ∧
      (Fast.sweep norm rows shape.dims).bests.toList.length = rows.length ∧
      ∀ (t : ℕ) (x : List Float), rows[t]? = some x →
        ∃ best, (Fast.sweep norm rows shape.dims).bests.toList[t]? = some best ∧
          (best = Scalar.infinity ∨
            ∃ (u : ℕ) (y : List Float), u ≠ t ∧ rows[u]? = some y ∧
              ((Fast.during norm rows shape.dims t (rows.length - 1)).table.get t u).progress =
                shape.dims ∧
              ((Fast.during norm rows shape.dims t (rows.length - 1)).table.get t u).value =
                best ∧
              best = Fast.passValue norm (Fast.tableBefore norm rows shape.dims t) t x u y) := by
  obtain ⟨-, hrows⟩ := Observations.searchShape_eq_ok_iff.1 hshape
  refine ⟨⟨Naive.minDistances_eq hshape, Naive.length_bests norm rows, ?_⟩,
    Fast.result_minDistances_eq_ok hshape, Fast.length_toList_bests norm rows shape.dims, ?_⟩
  · intro t x hx
    exact ⟨_, Naive.getElem?_bests hx, Naive.exists_nearest_eq norm rows x t⟩
  · intro t x hx
    have ht := (List.getElem?_eq_some_iff.1 hx).1
    refine ⟨_, Fast.getElem?_toList_bests ht, ?_⟩
    refine (Fast.settled_during hrows hx (Nat.le_refl _)).imp_right ?_
    rintro ⟨u, y, hut, hy, hprogress, hvalue, hbest⟩
    exact ⟨u, y, hut, hy, hprogress, hvalue, hbest⟩

/-- A norm that keeps no law: accumulators change their sign at every component. -/
def Norm.alternating : Norm where
  mode := .maxNorm
  accumulate p d := d - p
  finish p _ := p

/-- Three rows, one of them with a NaN, under a norm that keeps no law. -/
theorem finished_complete_alternating :
    Observations.searchShape [[0, 4], [3, 1], [0 / 0, 2]] = .ok ⟨3, 2⟩ ∧
    Observations.FitTable [[0, 4], [3, 1], [0 / 0, 2]] ∧
    (Fast.minDistances .alternating [[0, 4], [3, 1], [0 / 0, 2]]).result =
      .ok (finishAll .alternating 2
        (Fast.sweep .alternating [[0, 4], [3, 1], [0 / 0, 2]] 2).bests.toList) ∧
    (∃ best,
      (Naive.bests .alternating [[0, 4], [3, 1], [0 / 0, 2]])[1]? = some best ∧
      (best = Scalar.infinity ∨
        ∃ (u : ℕ) (y : List Float), u ≠ 1 ∧
          ([[0, 4], [3, 1], [0 / 0, 2]] : Observations)[u]? = some y ∧
          best = Norm.alternating.accumulated [3, 1] y)) ∧
    ∃ best,
      (Fast.sweep .alternating [[0, 4], [3, 1], [0 / 0, 2]] 2).bests.toList[1]? = some best ∧
      (best = Scalar.infinity ∨
        ∃ (u : ℕ) (y : List Float), u ≠ 1 ∧
          ([[0, 4], [3, 1], [0 / 0, 2]] : Observations)[u]? = some y ∧
          ((Fast.during .alternating [[0, 4], [3, 1], [0 / 0, 2]] 2 1 2).table.get 1 u).progress =
            2 ∧
          ((Fast.during .alternating [[0, 4], [3, 1], [0 / 0, 2]] 2 1 2).table.get 1 u).value =
            best) := by
  have hshape : Observations.searchShape [[0, 4], [3, 1], [0 / 0, 2]] = .ok ⟨3, 2⟩ := by decide
  have hfit : Observations.FitTable [[0, 4], [3, 1], [0 / 0, 2]] := by decide
  obtain ⟨⟨-, -, hnaive⟩, hresult, -, hfast⟩ := finished_complete .alternating hshape
  obtain ⟨best, hbest, hwon⟩ := hfast 1 [3, 1] rfl
  dsimp only at hresult hbest hwon
  refine ⟨hshape, hfit, hresult hfit, hnaive 1 [3, 1] rfl, best, hbest, hwon.imp_right ?_⟩
  rintro ⟨u, y, hut, hy, hprogress, hvalue, -⟩
  exact ⟨u, y, hut, hy, hprogress, hvalue⟩

end Proximity
