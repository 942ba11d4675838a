import Proximity.Proofs.Search.Distances

/-!
# Adding a row

One more row adds a visit to the pass over every row before it, and a pass of its own, in which all
earlier pairs are taken up again.  The bounds of all later comparisons change with it.  The results
change in a simple way all the same: the distance of an earlier row becomes the smaller one of what
it was and the distance to the new row, and the new row gets the least of its distances.

* `otherValues_append`, `otherValues_append_self` : the comparisons that a new row adds.
* `Naive.finish_nearest_append`, `Naive.finish_nearest_append_self` : the results with one more row.
* `minDistances_append` : **minimum distances can be kept up to date** when a row is added, and they
  never increase.
-/

namespace Proximity

variable {norm : Norm} {rows : Observations} {r x : List Float}

/-! ### The comparisons that a new row adds -/

theorem Observations.Searchable.append {dims : ℕ} (h : rows.Searchable dims)
    (hr : r.length = dims) : Observations.Searchable (rows ++ [r]) dims where
  two_le := by
    rw [List.length_append]
    exact Nat.le_add_right_of_le h.two_le
  dims_pos := h.dims_pos
  length_eq := by
    intro row hrow
    rcases List.mem_append.1 hrow with hrow | hrow
    · exact h.length_eq row hrow
    · rwa [List.mem_singleton.1 hrow]

theorem getElem?_concat_eq_some_iff {α : Type} {l : List α} {a b : α} {u : ℕ} :
    (l ++ [a])[u]? = some b ↔ l[u]? = some b ∨ u = l.length ∧ b = a := by
  rcases Nat.lt_trichotomy u l.length with hu | rfl | hu
  · rw [List.getElem?_append_left hu]
    simp [Nat.ne_of_lt hu]
  · simp [eq_comm]
  · rw [List.getElem?_eq_none (by simpa using hu), List.getElem?_eq_none (Nat.le_of_lt hu)]
    simp [Nat.ne_of_gt hu]

/-- An earlier row is also compared with the new one. -/
theorem otherValues_append {t : ℕ} (ht : t < rows.length) (value : ℕ → List Float → Float) :
    otherValues (rows ++ [r]) t value =
      insert (value rows.length r) (otherValues rows t value) := by
  ext v
  simp only [otherValues, Set.mem_ofPred_eq, Set.mem_insert_iff, getElem?_concat_eq_some_iff]
  constructor
  · rintro ⟨u, y, hut, hy | ⟨rfl, rfl⟩, rfl⟩
    · exact .inr ⟨u, y, hut, hy, rfl⟩
    · exact .inl rfl
  · rintro (rfl | ⟨u, y, hut, hy, rfl⟩)
    · exact ⟨rows.length, r, Nat.ne_of_gt ht, .inr ⟨rfl, rfl⟩, rfl⟩
    · exact ⟨u, y, hut, .inl hy, rfl⟩

/-- The new row is compared with every earlier one. -/
theorem otherValues_append_self (value : List Float → Float) :
    (otherValues (rows ++ [r]) rows.length fun _ y => value y) = {v | v ∈ rows.map value} := by
  ext v
  simp only [otherValues, Set.mem_ofPred_eq, getElem?_concat_eq_some_iff, List.mem_map]
  constructor
  · rintro ⟨u, y, hu, hy | ⟨rfl, -⟩, rfl⟩
    · exact ⟨y, List.mem_of_getElem? hy, rfl⟩
    · exact absurd rfl hu
  · rintro ⟨y, hy, rfl⟩
    obtain ⟨u, hu⟩ := List.mem_iff_getElem?.1 hy
    exact ⟨u, y, Nat.ne_of_lt (List.getElem?_eq_some_iff.1 hu).1, .inl hu, rfl⟩

/-! ### The results with one more row -/

namespace Naive

/-- The distance of an earlier row becomes the smaller one of what it was and the distance to the
new row. -/
theorem finish_nearest_append (h : norm.Prunable) (hfinish : norm.OrderedFinish) {t : ℕ}
    (ht : t < rows.length) (hx : 0 < x.length) (r : List Float) :
    norm.finish (nearest norm (rows ++ [r]) x t) x.length =
      Scalar.smaller (norm.finish (nearest norm rows x t) x.length) (norm.distance x r) := by
  have hbefore := isNearest_distance h hfinish rows hx t
  have hafter := isNearest_distance h hfinish (rows ++ [r]) hx t
  have himprove := hbefore.improve (norm.distance x r)
  rw [smaller_eq_improve hbefore.isNaN_eq_false]
  -- both are the least distance, with the new row among the others
  rw [← otherValues_append ht fun _ y => norm.distance x y] at himprove
  exact hafter.eq_of_otherValues
    (fun _ y => Norm.distance_ne_negative_zero h hfinish hx y) himprove

/-- With one more row, no distance increases. -/
theorem finish_nearest_append_le (h : norm.Prunable) (hfinish : norm.OrderedFinish) {t : ℕ}
    (ht : t < rows.length) (hx : 0 < x.length) (r : List Float) :
    norm.finish (nearest norm (rows ++ [r]) x t) x.length ≤
      norm.finish (nearest norm rows x t) x.length := by
  have hbefore := isNearest_distance h hfinish rows hx t
  have hafter := isNearest_distance h hfinish (rows ++ [r]) hx t
  refine hbefore.le_of_subset hafter ?_
  rw [otherValues_append ht]
  exact Set.subset_insert _ _

/-- The distance of the new row is the least of its distances to the earlier ones. -/
theorem finish_nearest_append_self (h : norm.Prunable) (hfinish : norm.OrderedFinish)
    (rows : Observations) (hr : 0 < r.length) :
    norm.finish (nearest norm (rows ++ [r]) r rows.length) r.length =
      (rows.map (norm.distance r)).foldl Scalar.smaller Scalar.infinity := by
  have hafter := isNearest_distance h hfinish (rows ++ [r]) hr rows.length
  have hleast := isNearest_foldl_smaller (rows.map (norm.distance r))
  rw [← otherValues_append_self] at hleast
  exact hafter.eq_of_otherValues
    (fun _ y => Norm.distance_ne_negative_zero h hfinish hr y) hleast

end Naive

/-- **Minimum distances with one more row**, bit for bit, for the standard norms, by either search
and for every number of rows up to which the fast one is used, as long as each table is within the
limits of the search.  The distance of an earlier row becomes the smaller one of what it was and the
distance to the new row, where a NaN is passed over; so it does not increase.  The distance of the
new row is the smallest of its distances to the earlier rows, starting from infinity. -/
theorem minDistances_append (mode : NormMode) {shape : Shape}
    (hshape : rows.searchShape = .ok shape) (hr : r.length = shape.dims) :
    ∃ before after : List Float,
      (∀ algorithm : Algorithm,
        (algorithm.Admits rows →
          (minDistancesBy mode.norm algorithm rows).result = .ok before) ∧
        (algorithm.Admits (rows ++ [r]) →
          (minDistancesBy mode.norm algorithm (rows ++ [r])).result = .ok after)) ∧
      (∀ maxRows,
        ((Algorithm.select rows.length maxRows).Admits rows →
          (minDistances mode.norm maxRows rows).result = .ok before) ∧
        ((Algorithm.select (rows ++ [r]).length maxRows).Admits (rows ++ [r]) →
          (minDistances mode.norm maxRows (rows ++ [r])).result = .ok after)) ∧
      before.length = rows.length ∧ after.length = rows.length + 1 ∧
      (∀ (t : ℕ) (x : List Float), rows[t]? = some x →
        ∃ d d', before[t]? = some d ∧ after[t]? = some d' ∧
          d' = Scalar.smaller d (mode.norm.distance x r) ∧ d' ≤ d) ∧
      after[rows.length]? =
        some ((rows.map (mode.norm.distance r)).foldl Scalar.smaller Scalar.infinity) := by
  obtain ⟨-, hrows⟩ := Observations.searchShape_eq_ok_iff.1 hshape
  have hrows' : Observations.Searchable (rows ++ [r]) shape.dims := hrows.append hr
  have hprunable := mode.prunable_norm
  have hfinish := mode.orderedFinish_norm
  refine ⟨finishAll mode.norm shape.dims (Naive.bests mode.norm rows),
    finishAll mode.norm shape.dims (Naive.bests mode.norm (rows ++ [r])),
    fun _ => ⟨mode.result_minDistancesBy_eq_ok hrows, mode.result_minDistancesBy_eq_ok hrows'⟩,
    fun _ => ⟨mode.result_minDistancesBy_eq_ok hrows, mode.result_minDistancesBy_eq_ok hrows'⟩,
    by simp, by simp, fun t x hx => ?_, ?_⟩
  · have ht := (List.getElem?_eq_some_iff.1 hx).1
    have hx' : (rows ++ [r])[t]? = some x := getElem?_concat_eq_some_iff.2 (.inl hx)
    have hdims : 0 < x.length := hrows.length_getElem? hx ▸ hrows.dims_pos
    rw [getElem?_finishAll, getElem?_finishAll, Naive.getElem?_bests hx, Naive.getElem?_bests hx',
      ← hrows.length_getElem? hx]
    exact ⟨_, _, rfl, rfl, Naive.finish_nearest_append hprunable hfinish ht hdims r,
      Naive.finish_nearest_append_le hprunable hfinish ht hdims r⟩
  · have hr' : (rows ++ [r])[rows.length]? = some r :=
      getElem?_concat_eq_some_iff.2 (.inr ⟨rfl, rfl⟩)
    rw [getElem?_finishAll, Naive.getElem?_bests hr', ← hr, Option.map_some,
      Naive.finish_nearest_append_self hprunable hfinish rows (hr ▸ hrows.dims_pos)]

/-- Two rows, one of them with a NaN, and a third one with an infinity. -/
theorem minDistances_append_mixed :
    Observations.searchShape [[0, 4], [0 / 0, 2]] = .ok ⟨2, 2⟩ ∧
    ([3, 1 / 0] : List Float).length = 2 ∧
    Algorithm.fast.Admits [[0, 4], [0 / 0, 2]] ∧
    Algorithm.fast.Admits [[0, 4], [0 / 0, 2], [3, 1 / 0]] ∧
    ∃ before after : List Float,
      (Fast.minDistances .euclideanNormalised [[0, 4], [0 / 0, 2]]).result = .ok before ∧
      (Fast.minDistances .euclideanNormalised [[0, 4], [0 / 0, 2], [3, 1 / 0]]).result =
        .ok after ∧
      ∃ d, before[0]? = some d ∧
        after[0]? = some (Scalar.smaller d (Norm.euclideanNormalised.distance [0, 4] [3, 1 / 0])) ∧
        after[2]? = some ([Norm.euclideanNormalised.distance [3, 1 / 0] [0, 4],
          Norm.euclideanNormalised.distance [3, 1 / 0] [0 / 0, 2]].foldl Scalar.smaller
            Scalar.infinity) := by
  have hshape : Observations.searchShape [[0, 4], [0 / 0, 2]] = .ok ⟨2, 2⟩ := by decide
  have hr : ([3, 1 / 0] : List Float).length = 2 := rfl
  have hfit : Algorithm.fast.Admits [[0, 4], [0 / 0, 2]] := by decide
  have hfit' : Algorithm.fast.Admits [[0, 4], [0 / 0, 2], [3, 1 / 0]] := by decide
  obtain ⟨before, after, hresult, -, -, -, hrow, hnew⟩ :=
    minDistances_append .euclideanNormalised hshape hr
  obtain ⟨hbefore, hafter⟩ := hresult .fast
  obtain ⟨d, d', hd, hd', hsmaller, -⟩ := hrow 0 [0, 4] rfl
  rw [hsmaller] at hd'
  exact ⟨hshape, hr, hfit, hfit', before, after, hbefore hfit, hafter hfit', d, hd, hd', hnew⟩

end Proximity
