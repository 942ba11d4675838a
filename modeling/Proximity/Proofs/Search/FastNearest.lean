import Proximity.Proofs.Norm.Variants
import Proximity.Proofs.Search.FastTable
import Proximity.Proofs.Search.Limits

/-!
# What the fast search finds

The pass over a row looks at every other row: at the earlier ones whose pair is complete before the
first visit, and at the rest when it visits them.  A later row is compared from the side of the row
of the pass.  With an earlier row, the components that were folded before the pass were folded from
the side of the earlier row, and only the others are folded from this side.  For a norm that may be
pruned, the best accumulator of the pass is the nearest one among these.

* `Fast.passValue` : the accumulator of a pass with another row.
* `Fast.isPrefix_visit` : where a visit leaves the cell of its pair, for every norm.
* `Fast.isNearest_during` : the best accumulator is the nearest one of the rows seen so far.
* `Fast.minDistances_oriented` : **what the fast search returns**, also for a one-sided norm.
-/

namespace Proximity

namespace Fast

/-- The accumulator of row `t`, which is `x`, with row `u`, which is `y`, in the pass over row `t`.
The table is the one before the pass. -/
def passValue (norm : Norm) (table : PairTable) (t : ℕ) (x : List Float) (u : ℕ)
    (y : List Float) : Float :=
  if t < u then norm.accumulated x y
  else norm.fold (mixedDifferences (table.get u t).progress y x)

/-- The differences that `passValue` is the accumulator of. -/
def passDifferences (table : PairTable) (t : ℕ) (x : List Float) (u : ℕ) (y : List Float) :
    List Float :=
  if t < u then differences x y else mixedDifferences (table.get u t).progress y x

theorem passValue_eq_fold (norm : Norm) (table : PairTable) (t : ℕ) (x : List Float) (u : ℕ)
    (y : List Float) :
    passValue norm table t x u y = norm.fold (passDifferences table t x u y) := by
  rw [passValue, passDifferences]
  split_ifs <;> rfl

theorem length_passDifferences (table : PairTable) (t : ℕ) (x : List Float) (u : ℕ)
    (y : List Float) : (passDifferences table t x u y).length = min x.length y.length := by
  rw [passDifferences]
  split_ifs
  · exact length_differences x y
  · rw [length_mixedDifferences, Nat.min_comm]

/-- The pass over row `t` has looked at row `u` after `k` visits: it has visited this row, or the
pair was complete before the pass. -/
def Seen (table : PairTable) (dims t k u : ℕ) : Prop :=
  u < t ∧ (u < k ∨ (table.get u t).progress = dims) ∨ t < u ∧ u ≤ k

/-- The accumulators of the rows that the pass over row `t` has looked at after `k` visits. -/
def seenValues (norm : Norm) (rows : Observations) (dims t k : ℕ) (x : List Float) : Set Float :=
  {v | ∃ u y, Seen (tableBefore norm rows dims t) dims t k u ∧ rows[u]? = some y ∧
    passValue norm (tableBefore norm rows dims t) t x u y = v}

variable {norm : Norm} {rows : Observations} {dims t k u : ℕ} {x y : List Float}

/-! ### The rows seen -/

theorem seen_succ {table : PairTable} {w : ℕ} (hu : u < t ∧ u = k ∨ t < u ∧ u = k + 1) :
    Seen table dims t (k + 1) w ↔ w = u ∨ Seen table dims t k w := by
  unfold Seen
  constructor
  · intro h
    omega
  · rintro (rfl | h) <;> omega

/-- A visit adds one accumulator. -/
theorem seenValues_succ (hy : rows[u]? = some y) (hu : u < t ∧ u = k ∨ t < u ∧ u = k + 1) :
    seenValues norm rows dims t (k + 1) x =
      insert (passValue norm (tableBefore norm rows dims t) t x u y)
        (seenValues norm rows dims t k x) := by
  ext v
  simp only [seenValues, Set.mem_ofPred_eq, Set.mem_insert_iff]
  constructor
  · rintro ⟨w, z, hw, hz, rfl⟩
    rcases (seen_succ hu).1 hw with rfl | hseen
    · obtain rfl : z = y := Option.some.inj (hz.symm.trans hy)
      exact .inl rfl
    · exact .inr ⟨w, z, hseen, hz, rfl⟩
  · rintro (rfl | ⟨w, z, hseen, hz, rfl⟩)
    · exact ⟨u, y, (seen_succ hu).2 (.inl rfl), hy, rfl⟩
    · exact ⟨w, z, (seen_succ hu).2 (.inr hseen), hz, rfl⟩

/-- At the end of a pass, every other row is seen. -/
theorem seenValues_end (ht : t < rows.length) :
    seenValues norm rows dims t (rows.length - 1) x =
      otherValues rows t (passValue norm (tableBefore norm rows dims t) t x) := by
  ext v
  simp only [seenValues, otherValues, Set.mem_ofPred_eq, Seen]
  constructor
  · rintro ⟨u, y, hseen, hy, rfl⟩
    exact ⟨u, y, by omega, hy, rfl⟩
  · rintro ⟨u, y, hut, hy, rfl⟩
    have hu := (List.getElem?_eq_some_iff.1 hy).1
    exact ⟨u, y, by omega, hy, rfl⟩

/-! ### One pass -/

theorem knownBest_eq (table : PairTable) (dims t : ℕ) :
    knownBest table dims t =
      (((List.range t).filter fun u => (table.get t u).progress = dims).map
        fun u => (table.get t u).value).foldl improve Scalar.infinity := by
  rw [List.foldl_map, List.foldl_filter]
  simp only [knownBest, decide_eq_true_eq]

/-- The cell of a complete pair with an earlier row holds the accumulator of the pass. -/
theorem value_eq_passValue (hrows : rows.Searchable dims) (hx : rows[t]? = some x)
    (hy : rows[u]? = some y) (hut : u < t)
    (hc : ((tableBefore norm rows dims t).get u t).progress = dims) :
    ((tableBefore norm rows dims t).get u t).value =
      passValue norm (tableBefore norm rows dims t) t x u y := by
  have ht := (List.getElem?_eq_some_iff.1 hx).1
  -- before the pass the cell is a fold from the side of the earlier row
  have hinv : PairInvariant norm y x u t t 0 ((tableBefore norm rows dims t).get u t) :=
    pairInvariant_during hut hy hx ht (Nat.zero_le _)
  have hfold : ((tableBefore norm rows dims t).get u t).IsPrefix norm
      (mixedDifferences ((tableBefore norm rows dims t).get u t).progress y x) :=
    PartialDistance.IsPrefix.mixed_iff.2 (hinv.isPrefix (.inr ⟨rfl, Nat.zero_le _⟩))
  rw [passValue, if_neg (Nat.lt_asymm hut)]
  refine hfold.value_of_complete ?_
  rw [hc, length_mixedDifferences, hrows.length_getElem? hy, hrows.length_getElem? hx, Nat.min_self]

theorem isNearest_knownBest (hrows : rows.Searchable dims) (hx : rows[t]? = some x) :
    IsNearest (seenValues norm rows dims t 0 x)
      (knownBest (tableBefore norm rows dims t) dims t) := by
  have ht := (List.getElem?_eq_some_iff.1 hx).1
  have hset : seenValues norm rows dims t 0 x =
      {v | v ∈ ((List.range t).filter fun u =>
        ((tableBefore norm rows dims t).get t u).progress = dims).map
          fun u => ((tableBefore norm rows dims t).get t u).value} := by
    ext v
    simp only [seenValues, Seen, Set.mem_ofPred_eq, List.mem_map, List.mem_filter, List.mem_range,
      decide_eq_true_eq, PairTable.get_comm _ t]
    constructor
    · rintro ⟨u, y, ⟨hut, hu | hc⟩ | hu, hy, rfl⟩
      · omega
      · exact ⟨u, ⟨hut, hc⟩, value_eq_passValue hrows hx hy hut hc⟩
      · omega
    · rintro ⟨u, ⟨hut, hc⟩, rfl⟩
      have hy := List.getElem?_eq_getElem (Nat.lt_trans hut ht)
      exact ⟨u, _, .inl ⟨hut, .inr hc⟩, hy, (value_eq_passValue hrows hx hy hut hc).symm⟩
  have hrun := IsNearest.empty.foldl_improve
    (((List.range t).filter fun u => ((tableBefore norm rows dims t).get t u).progress = dims).map
      fun u => ((tableBefore norm rows dims t).get t u).value)
  rwa [Set.empty_union, ← knownBest_eq, ← hset] at hrun

/-- A visit that goes on with a pair leaves its cell a fold of first differences of the pass, which
is complete or not below the bound. -/
theorem isPrefix_visit (hx : rows[t]? = some x) (hy : rows[u]? = some y)
    (hu : u < t ∧ u = k ∨ t < u ∧ u = k + 1) (best : Float) :
    (((during norm rows dims t k).table.get t u).resume norm x y best).IsPrefix norm
        (passDifferences (tableBefore norm rows dims t) t x u y) ∧
      ((((during norm rows dims t k).table.get t u).resume norm x y best).progress =
          (passDifferences (tableBefore norm rows dims t) t x u y).length ∨
        ¬ (((during norm rows dims t k).table.get t u).resume norm x y best).value < best) := by
  have ht := (List.getElem?_eq_some_iff.1 hx).1
  have hulen := (List.getElem?_eq_some_iff.1 hy).1
  rcases hu with ⟨hut, rfl⟩ | ⟨htu, rfl⟩
  · have hinv : PairInvariant norm y x u t t u ((during norm rows dims t u).table.get u t) :=
      pairInvariant_during hut hy hx ht (by omega)
    obtain ⟨-, hfold, hstop⟩ := hinv.resume_upper hut best
    rw [passDifferences, if_neg (Nat.lt_asymm hut), PairTable.get_comm _ t,
      ← get_during_of_le hut (Nat.le_refl _)]
    exact ⟨hfold, hstop⟩
  · -- the pair with a later row has not been touched yet
    have hinv : PairInvariant norm x y t (k + 1) t k
        ((during norm rows dims t k).table.get t (k + 1)) :=
      pairInvariant_during htu hx hy ht (by omega)
    rw [hinv.untouched (.inr ⟨rfl, Nat.lt_succ_self k⟩), passDifferences, if_pos htu]
    exact (PartialDistance.isPrefix_start norm (differences x y)).resume rfl rfl best

/-- A visit that goes on with a pair is as good as a complete fold. -/
theorem improve_visit (h : norm.Ascending) (hx : rows[t]? = some x) (hy : rows[u]? = some y)
    (hu : u < t ∧ u = k ∨ t < u ∧ u = k + 1) (best : Float) :
    improve best (((during norm rows dims t k).table.get t u).resume norm x y best).value =
      improve best (passValue norm (tableBefore norm rows dims t) t x u y) := by
  obtain ⟨hfold, hstop⟩ := isPrefix_visit hx hy hu best
  rw [hfold.improve_eq h hstop, passValue_eq_fold]

/-- **The best accumulator of a pass** is the nearest one of the rows seen so far. -/
theorem isNearest_during (h : norm.Ascending) (hrows : rows.Searchable dims)
    (hx : rows[t]? = some x) (hk : k ≤ rows.length - 1) :
    IsNearest (seenValues norm rows dims t k x) (during norm rows dims t k).best := by
  have ht := (List.getElem?_eq_some_iff.1 hx).1
  induction k with
  | zero => exact isNearest_knownBest hrows hx
  | succ k ih =>
    have hseen := ih (Nat.le_of_succ_le hk)
    obtain ⟨u, y, hy, hu⟩ := exists_other ht hk
    rw [during_succ hx hy hu, seenValues_succ hy hu]
    rcases visit_cases norm dims x y (key_lt_size_during hx hy hu) with
      ⟨hut, hc, hsame⟩ | ⟨-, -, hbest⟩
    · -- a pair that is passed over was seen before the first visit
      have huk : k ≤ u := by omega
      rw [PairTable.get_comm, get_during_of_le hut huk] at hc
      have hmem : passValue norm (tableBefore norm rows dims t) t x u y ∈
          seenValues norm rows dims t k x :=
        ⟨u, y, .inl ⟨hut, .inr hc⟩, hy, rfl⟩
      rw [hsame, Set.insert_eq_of_mem hmem]
      exact hseen
    · rw [hbest, improve_visit h hx hy hu]
      exact hseen.improve _

/-! ### All passes -/

theorem isNearest_best (h : norm.Prunable) (hrows : rows.Searchable dims)
    (hx : rows[t]? = some x) :
    IsNearest (otherValues rows t (passValue norm (tableBefore norm rows dims t) t x))
      (during norm rows dims t (rows.length - 1)).best := by
  rw [← seenValues_end (List.getElem?_eq_some_iff.1 hx).1]
  exact isNearest_during h.ascending hrows hx (Nat.le_refl _)

theorem getElem?_toList_bests (ht : t < rows.length) :
    (sweep norm rows dims).bests.toList[t]? =
      some (during norm rows dims t (rows.length - 1)).best := by
  rw [toList_bests_sweep, List.getElem?_map, List.getElem?_range ht]
  rfl

theorem length_toList_bests (norm : Norm) (rows : Observations) (dims : ℕ) :
    (sweep norm rows dims).bests.toList.length = rows.length := by
  rw [toList_bests_sweep, List.length_map, List.length_range]

theorem result_minDistances (norm : Norm) (rows : Observations) :
    (minDistances norm rows).result = (tableShape rows).map fun shape =>
      finishAll norm shape.dims (sweep norm rows shape.dims).bests.toList := by
  rw [minDistances]
  cases tableShape rows <;> rfl

/-- The distances of a table that can be searched and is within the limits. -/
theorem result_minDistances_eq_ok {shape : Shape} (hshape : rows.searchShape = .ok shape)
    (hfit : rows.FitTable) :
    (minDistances norm rows).result =
      .ok (finishAll norm shape.dims (sweep norm rows shape.dims).bests.toList) := by
  rw [result_minDistances, tableShape_eq_iff.2 hfit, hshape]
  rfl

theorem passValue_ne_negative_zero (h : norm.Prunable) (table : PairTable) (t : ℕ)
    (x : List Float) (u : ℕ) (y : List Float) : passValue norm table t x u y ≠ -0 := by
  rw [passValue_eq_fold]
  exact h.fold_ne_negative_zero _

/-- **What the fast search returns** for a norm that may be pruned, also for a one-sided one: the
distance of row `t` is finished from the least accumulator of its pass with another row that is
below infinity, or from infinity if there is none.  With a later row this is the accumulator of row
`t` from that row.  With an earlier row, the differences up to the progress that the pair has before
the pass are taken the other way round.  There is one distance for each row, in row order.  The
table has to be within the limits of the search. -/
theorem minDistances_oriented (h : norm.Prunable) {shape : Shape}
    (hshape : rows.searchShape = .ok shape) (hfit : rows.FitTable) :
    ∃ distances, (minDistances norm rows).result = .ok distances ∧
      distances.length = rows.length ∧
      ∀ t x, rows[t]? = some x →
        ∃ m, IsNearest
            (otherValues rows t (passValue norm (tableBefore norm rows shape.dims t) t x)) m ∧
          (∀ m', IsNearest
            (otherValues rows t (passValue norm (tableBefore norm rows shape.dims t) t x)) m' →
            m' = m) ∧
          distances[t]? = some (norm.finish m shape.dims) := by
  obtain ⟨-, hrows⟩ := Observations.searchShape_eq_ok_iff.1 hshape
  refine ⟨_, result_minDistances_eq_ok hshape hfit, ?_, ?_⟩
  · rw [length_finishAll, length_toList_bests]
  · intro t x hx
    have hnearest := isNearest_best h hrows hx
    refine ⟨_, hnearest, fun m' hm' => ?_, ?_⟩
    · exact hm'.eq_of_otherValues (passValue_ne_negative_zero h _ t x) hnearest
    · rw [getElem?_finishAll, getElem?_toList_bests (List.getElem?_eq_some_iff.1 hx).1]
      rfl

/-- The one-sided distance of the second of three rows, one of them with a component that is not a
number. -/
theorem minDistances_oriented_excess :
    Norm.excess.Prunable ∧
    Observations.searchShape [[0, 4], [3, 1], [0 / 0, 2]] = .ok ⟨3, 2⟩ ∧
    Observations.FitTable [[0, 4], [3, 1], [0 / 0, 2]] ∧
    ∃ distances m, (minDistances .excess [[0, 4], [3, 1], [0 / 0, 2]]).result = .ok distances ∧
      IsNearest (otherValues [[0, 4], [3, 1], [0 / 0, 2]] 1 (passValue .excess
        (tableBefore .excess [[0, 4], [3, 1], [0 / 0, 2]] 2 1) 1 [3, 1])) m ∧
      distances[1]? = some m := by
  have hshape : Observations.searchShape [[0, 4], [3, 1], [0 / 0, 2]] = .ok ⟨3, 2⟩ := by decide
  have hfit : Observations.FitTable [[0, 4], [3, 1], [0 / 0, 2]] := by decide
  obtain ⟨distances, hresult, -, hrow⟩ := minDistances_oriented Norm.prunable_excess hshape hfit
  obtain ⟨m, hm, -, hd⟩ := hrow 1 [3, 1] rfl
  exact ⟨Norm.prunable_excess, hshape, hfit, distances, m, hresult, hm, hd⟩

end Fast

end Proximity
