import Proximity.Proofs.Search.Agreement

/-!
# The work of the searches

The work of a search is the number of components that it folds, over all comparisons.  The fast
search visits a pair at most twice, and it never folds a component of a pair again.  If the norm is
inflationary and does not look at the order of operands, it also never looks further than the naive
search: in the pass over a row its best accumulator is at most that of the naive scan, which has
seen no more rows at that point.

* `foldCost` : the cost of the steps of a fold.
* `Naive.comparison`, `Naive.work`, `Fast.work` : where the naive search leaves a pair, and the work
  of the two searches.
* `Fast.get_during_between`, `Fast.get_during_after` : the cell of a pair after its first and after
  its second visit.
* `Fast.best_during_le`, `Fast.le_best_during` : the bounds of the two searches, compared.
* `Fast.visitCount_le` : no visit folds more than the comparison of the same rows in the naive
  search.
* `Fast.work_le` : **the fast search folds no more than the naive one**, pair by pair and in total.
-/

namespace Proximity

/-! ### The cost of a fold -/

section FoldCost

variable {σ σ' α : Type} {step : σ → α → σ} {step' : σ' → α → σ'} {cost : σ → α → ℕ}
  {cost' : σ' → α → ℕ}

/-- The total cost of the steps of a fold, where the cost of a step depends on the state before
it. -/
def foldCost (step : σ → α → σ) (cost : σ → α → ℕ) : σ → List α → ℕ
  | _, [] => 0
  | s, a :: l => cost s a + foldCost step cost (step s a) l

/-- Costs are compared step by step. -/
theorem foldCost_le_foldCost {s : σ} {s' : σ'} {l : List α}
    (h : ∀ k a, l[k]? = some a →
      cost ((l.take k).foldl step s) a ≤ cost' ((l.take k).foldl step' s') a) :
    foldCost step cost s l ≤ foldCost step' cost' s' l := by
  induction l generalizing s s' with
  | nil => exact Nat.le_refl _
  | cons a l ih =>
    refine Nat.add_le_add (h 0 a rfl) (ih ?_)
    intro k b hb
    exact h (k + 1) b hb

/-- A sum is the cost of a fold that keeps nothing. -/
theorem sum_map_eq_foldCost (f : α → ℕ) (l : List α) :
    (l.map f).sum = foldCost (fun _ _ => ()) (fun _ a => f a) () l := by
  induction l with
  | nil => rfl
  | cons a l ih => rw [List.map_cons, List.sum_cons, ih, foldCost]

end FoldCost

/-! ### The work of the naive search -/

namespace Naive

section Definitions

variable (norm : Norm) (rows : Observations)

/-- The best accumulator in the scan for row `t` after its first `k` comparisons. -/
def during (t k : ℕ) : Float :=
  ((others rows t).take k).foldl (fun best other => compare norm (rows.getD t []) best other.1)
    Scalar.infinity

/-- Where the scan for row `t` leaves the comparison with row `u`. -/
def comparison (t u : ℕ) : PartialDistance :=
  PartialDistance.start.resume norm (rows.getD t []) (rows.getD u [])
    (during norm rows t (if u < t then u else u - 1))

/-- The number of components folded in the scan for row `t`, which is `x`. -/
def scanWork (x : List Float) (t : ℕ) : ℕ :=
  foldCost (fun best other => compare norm x best other.1)
    (fun best other => PartialDistance.start.resumeCount norm x other.1 best) Scalar.infinity
    (others rows t)

/-- The number of components that the naive search folds. -/
def work : ℕ := (rows.zipIdx.map fun row => scanWork norm rows row.1 row.2).sum

/-- The accumulators of the rows that the scan for row `t`, which is `x`, has compared after `k`
comparisons. -/
def scannedValues (t k : ℕ) (x : List Float) : Set Float :=
  {v | ∃ u y, (u < t ∧ u < k ∨ t < u ∧ u ≤ k) ∧ rows[u]? = some y ∧ norm.accumulated x y = v}

end Definitions

variable {norm : Norm} {rows : Observations} {t k u : ℕ} {x y : List Float}

theorem comparison_eq (hx : rows[t]? = some x) (hy : rows[u]? = some y)
    (hu : u < t ∧ u = k ∨ t < u ∧ u = k + 1) :
    comparison norm rows t u = PartialDistance.start.resume norm x y (during norm rows t k) := by
  have hk : (if u < t then u else u - 1) = k := by split_ifs <;> omega
  rw [comparison, hk, Fast.getD_of_getElem? hx, Fast.getD_of_getElem? hy]

/-- The scan keeps the better of its best accumulator and the next comparison. -/
theorem during_succ (hx : rows[t]? = some x) (hy : rows[u]? = some y)
    (hu : u < t ∧ u = k ∨ t < u ∧ u = k + 1) :
    during norm rows t (k + 1) =
      improve (during norm rows t k) (comparison norm rows t u).value := by
  rw [comparison_eq hx hy hu, during, List.take_add_one, getElem?_others_eq_some_iff.2 ⟨hy, hu⟩,
    List.foldl_append, Fast.getD_of_getElem? hx, during, Fast.getD_of_getElem? hx]
  rfl

theorem during_sticky (norm : Norm) (rows : Observations) (t k : ℕ) :
    during norm.sticky rows t k = during norm rows t k := by
  simp only [during, norm.foldsLike_sticky.compare_eq]

theorem isNearest_during (h : norm.Ascending) (hx : rows[t]? = some x) (k : ℕ) :
    IsNearest (scannedValues norm rows t k x) (during norm rows t k) := by
  have hset : scannedValues norm rows t k x =
      {v | v ∈ ((others rows t).take k).map fun other => norm.accumulated x other.1} := by
    ext v
    simp only [scannedValues, Set.mem_ofPred_eq, List.mem_map, Prod.exists, mem_take_others]
    constructor
    · rintro ⟨u, y, hu, hy, rfl⟩
      exact ⟨y, u, ⟨hy, hu⟩, rfl⟩
    · rintro ⟨y, u, ⟨hy, hu⟩, rfl⟩
      exact ⟨u, y, hu, hy, rfl⟩
  rw [hset, during, Fast.getD_of_getElem? hx]
  exact isNearest_foldl_compare h x _

end Naive

/-! ### The work of the fast search -/

namespace Fast

section Definitions

variable (norm : Norm)

/-- The number of components that a visit folds. -/
def visitCount (dims : ℕ) (x : List Float) (t : ℕ) (state : Pass) (other : List Float × ℕ) : ℕ :=
  let cell := state.table.get t other.2
  if other.2 < t ∧ cell.progress = dims then 0 else cell.resumeCount norm x other.1 state.best

/-- The number of components folded in the pass over row `t`, which is `x`. -/
def passWork (rows : Observations) (dims : ℕ) (table : PairTable) (x : List Float) (t : ℕ) : ℕ :=
  foldCost (visit norm dims x t) (visitCount norm dims x t) ⟨table, knownBest table dims t⟩
    (others rows t)

/-- The number of components that the fast search folds. -/
def work (rows : Observations) (dims : ℕ) : ℕ :=
  foldCost (advance norm rows dims)
    (fun state row => passWork norm rows dims state.table row.1 row.2) ⟨.start rows.length, #[]⟩
    rows.zipIdx

end Definitions

variable {norm : Norm} {rows : Observations} {dims t k u lo hi : ℕ} {x y : List Float}

/-! ### The two visits to a pair -/

/-- Between its two visits, the cell of a pair stands where the first visit left it. -/
theorem get_during_between (hlt : lo < hi) (hx : rows[lo]? = some x) (hy : rows[hi]? = some y)
    (ht : t < rows.length) (hk : k ≤ rows.length - 1) (hafter : lo < t ∨ t = lo ∧ hi ≤ k)
    (hbefore : t < hi ∨ t = hi ∧ k ≤ lo) :
    (during norm rows dims t k).table.get lo hi =
      PartialDistance.start.resume norm x y (during norm rows dims lo (hi - 1)).best := by
  have hhi := (List.getElem?_eq_some_iff.1 hy).1
  refine table_induction (motive := fun t k table => lo < t ∨ t = lo ∧ hi ≤ k →
    t < hi ∨ t = hi ∧ k ≤ lo → table.get lo hi =
      PartialDistance.start.resume norm x y (during norm rows dims lo (hi - 1)).best)
    ?_ ?_ ?_ ht hk hafter hbefore
  · omega
  · intro t k x' u y' hx' hy' hu ih hafter hbefore
    have hkey : PairTable.key t u < (during norm rows dims t k).table.cells.size :=
      key_lt_size_during hx' hy' hu
    have hut : u ≠ t := by omega
    rcases get_visit_cases norm dims x' y' hlt hut hkey with
      ⟨rfl, rfl, hget⟩ | ⟨rfl, rfl, -⟩ | ⟨hpair, hget⟩
    · -- this is the first visit, and nothing is folded before it
      obtain rfl : k = u - 1 := by omega
      obtain rfl : x' = x := Option.some.inj (hx'.symm.trans hx)
      obtain rfl : y' = y := Option.some.inj (hy'.symm.trans hy)
      have hinv : PairInvariant norm x' y' t u t (u - 1)
          ((during norm rows dims t (u - 1)).table.get t u) :=
        pairInvariant_during hlt hx' hy' (by omega) (by omega)
      rw [hget, hinv.untouched (by omega)]
    · omega
    · have hne : ¬ (t = lo ∧ u = hi) := by
        rintro ⟨rfl, rfl⟩
        exact hpair rfl
      rw [hget]
      exact ih (by omega) (by omega)
  · intro t _ ih hafter hbefore
    exact ih (by omega) (by omega)

theorem get_tableBefore_succ (hlt : lo < hi) (hx : rows[lo]? = some x) (hy : rows[hi]? = some y) :
    (tableBefore norm rows dims (lo + 1)).get lo hi =
      PartialDistance.start.resume norm x y (during norm rows dims lo (hi - 1)).best := by
  have hhi := (List.getElem?_eq_some_iff.1 hy).1
  have hlast : hi ≤ rows.length - 1 := by omega
  rw [tableBefore_succ (by omega)]
  exact get_during_between hlt hx hy (by omega) (Nat.le_refl _) (.inr ⟨rfl, hlast⟩) (.inl hlt)

/-- After its second visit, the cell of a pair stands where this visit left it. -/
theorem get_during_after (hrows : rows.Searchable dims) (hlt : lo < hi)
    (hx : rows[lo]? = some x) (hy : rows[hi]? = some y) (ht : t < rows.length)
    (hk : k ≤ rows.length - 1) (hafter : hi < t ∨ t = hi ∧ lo < k) :
    (during norm rows dims t k).table.get lo hi =
      (PartialDistance.start.resume norm x y (during norm rows dims lo (hi - 1)).best).resume norm
        y x (during norm rows dims hi lo).best := by
  have hhi := (List.getElem?_eq_some_iff.1 hy).1
  refine table_induction (motive := fun t k table => hi < t ∨ t = hi ∧ lo < k →
    table.get lo hi = (PartialDistance.start.resume norm x y
      (during norm rows dims lo (hi - 1)).best).resume norm y x
        (during norm rows dims hi lo).best) ?_ ?_ ?_ ht hk hafter
  · omega
  · intro t k x' u y' hx' hy' hu ih hafter
    have hkey : PairTable.key t u < (during norm rows dims t k).table.cells.size :=
      key_lt_size_during hx' hy' hu
    have hut : u ≠ t := by omega
    rcases get_visit_cases norm dims x' y' hlt hut hkey with
      ⟨rfl, rfl, -⟩ | ⟨rfl, rfl, hvisit⟩ | ⟨hpair, hget⟩
    · omega
    · -- this is the second visit, which may pass over the pair only if it is complete
      obtain rfl : k = u := by omega
      obtain rfl : x' = y := Option.some.inj (hx'.symm.trans hy)
      obtain rfl : y' = x := Option.some.inj (hy'.symm.trans hx)
      rw [get_during_between hlt hx hy hhi (by omega) (.inl hlt) (.inr ⟨rfl, Nat.le_refl _⟩)]
        at hvisit
      rcases hvisit with ⟨hc, hget⟩ | hget
      · rw [hget, PartialDistance.resume_of_complete x' y']
        rw [hc, hrows.length_getElem? hy]
      · exact hget
    · have hne : ¬ (t = hi ∧ u = lo) := by
        rintro ⟨rfl, rfl⟩
        exact hpair (PairTable.key_comm t u)
      rw [hget]
      exact ih (by omega)
  · intro t _ ih hafter
    exact ih (by omega)

theorem table_sweep (hrows : rows.Searchable dims) :
    (sweep norm rows dims).table =
      (during norm rows dims (rows.length - 1) (rows.length - 1)).table := by
  have htwo := hrows.two_le
  rw [← tableBefore_succ (by omega), tableBefore, List.take_of_length_le]
  · rfl
  · rw [List.length_zipIdx]
    omega

/-! ### The bounds of the two searches -/

theorem during_sticky (norm : Norm) (rows : Observations) (dims t k : ℕ) :
    during norm.sticky rows dims t k = during norm rows dims t k := by
  simp only [during, tableBefore, sweepOver, norm.foldsLike_sticky.visit_eq,
    norm.foldsLike_sticky.advance_eq]

/-- **The bound of the fast search is at most that of the naive search.** -/
theorem best_during_le (hup : norm.Inflationary) (hswap : norm.SwapEven)
    (hrows : rows.Searchable dims) (hx : rows[t]? = some x) (hk : k ≤ rows.length - 1) :
    (during norm rows dims t k).best ≤ Naive.during norm rows t k := by
  have hfast := isNearest_during (Norm.ascending_sticky hup) hrows hx hk
  have hnaive := Naive.isNearest_during (Norm.ascending_sticky hup) hx k
  rw [during_sticky] at hfast
  rw [Naive.during_sticky] at hnaive
  refine hnaive.le_of_subset hfast ?_
  rintro v ⟨u, y, hu, hy, rfl⟩
  exact ⟨u, y, by unfold Seen; omega, hy, passValue_eq hswap.sticky _ t x u y⟩

/-- **The bounds agree** when the scan has come to the later rows. -/
theorem le_best_during (hup : norm.Inflationary) (hswap : norm.SwapEven)
    (hrows : rows.Searchable dims) (hx : rows[t]? = some x) (hk : k ≤ rows.length - 1)
    (htk : t ≤ k) : Naive.during norm rows t k ≤ (during norm rows dims t k).best := by
  have hfast := isNearest_during (Norm.ascending_sticky hup) hrows hx hk
  have hnaive := Naive.isNearest_during (Norm.ascending_sticky hup) hx k
  rw [during_sticky] at hfast
  rw [Naive.during_sticky] at hnaive
  refine hfast.le_of_subset hnaive ?_
  rintro v ⟨u, y, hu, hy, rfl⟩
  unfold Seen at hu
  exact ⟨u, y, by omega, hy, (passValue_eq hswap.sticky _ t x u y).symm⟩

/-! ### Comparing the work -/

/-- **No visit folds more** than the comparison of the same rows in the naive search. -/
theorem visitCount_le (hup : norm.Inflationary) (hswap : norm.SwapEven)
    (hrows : rows.Searchable dims) (hx : rows[t]? = some x) (hy : rows[u]? = some y)
    (hu : u < t ∧ u = k ∨ t < u ∧ u = k + 1) :
    visitCount norm dims x t (during norm rows dims t k) (y, u) ≤
      PartialDistance.start.resumeCount norm x y (Naive.during norm rows t k) := by
  have ht := (List.getElem?_eq_some_iff.1 hx).1
  have hulen := (List.getElem?_eq_some_iff.1 hy).1
  have hbound : (during norm rows dims t k).best ≤ Naive.during norm rows t k :=
    best_during_le hup hswap hrows hx (by omega)
  simp only [visitCount]
  split_ifs with hc
  · exact Nat.zero_le _
  · rcases hu with ⟨hut, rfl⟩ | ⟨htu, rfl⟩
    · -- the first visit was from the side of the earlier row
      have hfirst : (during norm rows dims u (t - 1)).best ≤ Naive.during norm rows u (t - 1) :=
        best_during_le hup hswap hrows hy (by omega)
      rw [PairTable.get_comm, get_during_between hut hy hx ht (by omega) (.inl hut)
        (.inr ⟨rfl, Nat.le_refl _⟩), PartialDistance.resume_comm hswap]
      refine Nat.le_trans (PartialDistance.resumeCount_resume_le (Scalar.isNaN_left_of_le hfirst)
        (Scalar.isNaN_left_of_le hbound) x y) ?_
      exact PartialDistance.resumeCount_le hbound x y
    · have hinv : PairInvariant norm x y t (k + 1) t k
          ((during norm rows dims t k).table.get t (k + 1)) :=
        pairInvariant_during htu hx hy ht (by omega)
      rw [hinv.untouched (.inr ⟨rfl, Nat.lt_succ_self k⟩)]
      exact PartialDistance.resumeCount_le hbound x y

/-- No pass folds more than the naive scan for its row. -/
theorem passWork_le (hup : norm.Inflationary) (hswap : norm.SwapEven)
    (hrows : rows.Searchable dims) (hx : rows[t]? = some x) :
    passWork norm rows dims (tableBefore norm rows dims t) x t ≤ Naive.scanWork norm rows x t := by
  refine foldCost_le_foldCost ?_
  rintro k ⟨y, u⟩ hother
  obtain ⟨hy, hu⟩ := getElem?_others_eq_some_iff.1 hother
  have hcount := visitCount_le hup hswap hrows hx hy hu
  rwa [during, Naive.during, getD_of_getElem? hx] at hcount

theorem work_le_naive (hup : norm.Inflationary) (hswap : norm.SwapEven)
    (hrows : rows.Searchable dims) : work norm rows dims ≤ Naive.work norm rows := by
  rw [Naive.work, sum_map_eq_foldCost]
  refine foldCost_le_foldCost ?_
  rintro t ⟨x, t'⟩ hrow
  rw [List.getElem?_zipIdx, Nat.zero_add, Option.map_eq_some_iff] at hrow
  obtain ⟨x, hx, ⟨⟩⟩ := hrow
  exact passWork_le hup hswap hrows hx

/-- The first visit to a pair stops where the naive search does. -/
theorem get_tableBefore_succ_eq_naive (hup : norm.Inflationary) (hswap : norm.SwapEven)
    (hrows : rows.Searchable dims) (hlt : lo < hi) (hx : rows[lo]? = some x)
    (hy : rows[hi]? = some y) :
    (tableBefore norm rows dims (lo + 1)).get lo hi = Naive.comparison norm rows lo hi := by
  have hhi := (List.getElem?_eq_some_iff.1 hy).1
  have hbound : (during norm rows dims lo (hi - 1)).best ≤ Naive.during norm rows lo (hi - 1) :=
    best_during_le hup hswap hrows hx (by omega)
  have hbound' : Naive.during norm rows lo (hi - 1) ≤ (during norm rows dims lo (hi - 1)).best :=
    le_best_during hup hswap hrows hx (by omega) (by omega)
  have hlast : hi = hi - 1 + 1 := by omega
  rw [get_tableBefore_succ hlt hx hy, Naive.comparison_eq hx hy (.inr ⟨hlt, hlast⟩)]
  exact PartialDistance.resume_eq_of_le_of_le hbound hbound' x y

/-- The second visit to a pair stops where the first one did, or not behind the naive search. -/
theorem progress_sweep_le (hup : norm.Inflationary) (hswap : norm.SwapEven)
    (hrows : rows.Searchable dims) (hlt : lo < hi) (hx : rows[lo]? = some x)
    (hy : rows[hi]? = some y) :
    ((sweep norm rows dims).table.get lo hi).progress ≤
      max (Naive.comparison norm rows lo hi).progress
        (Naive.comparison norm rows hi lo).progress := by
  have hhi := (List.getElem?_eq_some_iff.1 hy).1
  have hfirst := get_tableBefore_succ_eq_naive hup hswap hrows hlt hx hy
  have hbound : (during norm rows dims lo (hi - 1)).best ≤ Naive.during norm rows lo (hi - 1) :=
    best_during_le hup hswap hrows hx (by omega)
  have hbound' : (during norm rows dims hi lo).best ≤ Naive.during norm rows hi lo :=
    best_during_le hup hswap hrows hy (by omega)
  rw [get_tableBefore_succ hlt hx hy] at hfirst
  rw [table_sweep hrows, get_during_after hrows hlt hx hy (by omega) (Nat.le_refl _) (by omega),
    ← PartialDistance.resume_comm hswap x y, ← hfirst,
    Naive.comparison_eq hy hx (.inl ⟨hlt, rfl⟩), ← PartialDistance.resume_comm hswap x y]
  generalize PartialDistance.start = cell
  rcases PartialDistance.resume_resume_cases (Scalar.isNaN_left_of_le hbound)
    (Scalar.isNaN_left_of_le hbound') x y with heq | heq
  · rw [heq]
    exact Nat.le_trans (PartialDistance.progress_resume_le hbound' x y) (Nat.le_max_right _ _)
  · rw [heq]
    exact Nat.le_max_left _ _

/-- **The fast search folds no more than the naive one**, for a norm that is inflationary and does
not look at the order of operands.  Right after the pass over the smaller row of a pair, the pair
stands exactly where the naive search leaves it when it scans for that row.  At the end of the run
it stands no further than the naive search gets in one of its two comparisons of these rows.  In
total, too, the fast search folds at most as many components as the naive one. -/
theorem work_le (hup : norm.Inflationary) (hswap : norm.SwapEven) {shape : Shape}
    (hshape : rows.searchShape = .ok shape) :
    (∀ lo hi, lo < hi → hi < rows.length →
      (tableBefore norm rows shape.dims (lo + 1)).get lo hi = Naive.comparison norm rows lo hi ∧
      ((sweep norm rows shape.dims).table.get lo hi).progress ≤
        max (Naive.comparison norm rows lo hi).progress
          (Naive.comparison norm rows hi lo).progress) ∧
    work norm rows shape.dims ≤ Naive.work norm rows := by
  obtain ⟨-, hrows⟩ := Observations.searchShape_eq_ok_iff.1 hshape
  refine ⟨fun lo hi hlt hhi => ?_, work_le_naive hup hswap hrows⟩
  have hx := List.getElem?_eq_getElem (Nat.lt_trans hlt hhi)
  have hy := List.getElem?_eq_getElem hhi
  exact ⟨get_tableBefore_succ_eq_naive hup hswap hrows hlt hx hy,
    progress_sweep_le hup hswap hrows hlt hx hy⟩

/-- The maximum norm on four rows, one of them with a component that is not a number. -/
theorem work_le_maximum :
    Norm.maximum.Inflationary ∧ Norm.maximum.SwapEven ∧
    Observations.searchShape [[0, 4], [3, 1], [0, 0 / 0], [1, 1]] = .ok ⟨4, 2⟩ ∧
    1 < 3 ∧ 3 < 4 ∧
    (tableBefore .maximum [[0, 4], [3, 1], [0, 0 / 0], [1, 1]] 2 2).get 1 3 =
      Naive.comparison .maximum [[0, 4], [3, 1], [0, 0 / 0], [1, 1]] 1 3 ∧
    ((sweep .maximum [[0, 4], [3, 1], [0, 0 / 0], [1, 1]] 2).table.get 1 3).progress ≤
      max (Naive.comparison .maximum [[0, 4], [3, 1], [0, 0 / 0], [1, 1]] 1 3).progress
        (Naive.comparison .maximum [[0, 4], [3, 1], [0, 0 / 0], [1, 1]] 3 1).progress ∧
    work .maximum [[0, 4], [3, 1], [0, 0 / 0], [1, 1]] 2 ≤
      Naive.work .maximum [[0, 4], [3, 1], [0, 0 / 0], [1, 1]] := by
  have hup := Norm.prunable_maximum.inflationary
  have hshape :
      Observations.searchShape [[0, 4], [3, 1], [0, 0 / 0], [1, 1]] = .ok ⟨4, 2⟩ := by decide
  have hwork := work_le hup Norm.swapEven_maximum hshape
  have hpair := hwork.1 1 3 (by decide) (by decide)
  exact ⟨hup, Norm.swapEven_maximum, hshape, by decide, by decide, hpair.1, hpair.2, hwork.2⟩

end Fast

end Proximity
