import Mathlib.Data.List.Forall2
import Proximity.PartialDistance
import Proximity.Search.Basic
import Proximity.Proofs.Binary64.Larger
import Proximity.Proofs.Norm.Laws

/-!
# Abandoning and resuming a fold

A `PartialDistance` always stands after some first components of the pair that it belongs to.  This
file says where `resume` stops, that it keeps the cell a fold of first components, also when the
rows are exchanged on the way, and that a search loses nothing by stopping there.

* `PartialDistance.exists_extend_eq`, `PartialDistance.exists_resume_eq` : the fold stops at the
  first accumulator that is not below the bound, or at the end.
* `PartialDistance.resume_resume` : a fold that is resumed under another bound stands where the
  larger of the two bounds lets it go.
* `mixedDifferences` : the differences of two rows whose order changes on the way.
* `PartialDistance.IsPrefix` : the cell is a fold of first components, and `IsPrefix.resume` : it
  stays one.
* `PartialDistance.IsPrefix.improve_eq` : **a cell that stands at the bound is as good as the
  complete fold** when the best accumulator is to be improved.
-/

namespace Proximity

/-! ### Differences -/

@[simp] theorem length_differences (a b : List Float) :
    (differences a b).length = min a.length b.length := List.length_zipWith

theorem differences_drop (a b : List Float) (k : ℕ) :
    differences (a.drop k) (b.drop k) = (differences a b).drop k := List.drop_zipWith.symm

/-- The first `k` differences of `a` from `b`, and then those of `b` from `a`. -/
def mixedDifferences (k : ℕ) (a b : List Float) : List Float :=
  (differences a b).take k ++ (differences b a).drop k

@[simp] theorem length_mixedDifferences (k : ℕ) (a b : List Float) :
    (mixedDifferences k a b).length = min a.length b.length := by
  simp only [mixedDifferences, List.length_append, List.length_take, List.length_drop,
    length_differences]
  omega

theorem take_mixedDifferences {k p : ℕ} (h : p ≤ k) (a b : List Float) :
    (mixedDifferences k a b).take p = (differences a b).take p := by
  have hrest : ((differences b a).drop k).take (p - ((differences a b).take k).length) = [] := by
    refine List.eq_nil_of_length_eq_zero ?_
    simp only [List.length_take, List.length_drop, length_differences]
    omega
  rw [mixedDifferences, List.take_append, hrest, List.append_nil, List.take_take,
    Nat.min_eq_left h]

theorem drop_mixedDifferences (k : ℕ) (a b : List Float) :
    (mixedDifferences k a b).drop k = (differences b a).drop k := by
  rw [mixedDifferences, List.drop_append, List.drop_take, Nat.sub_self, List.take_zero,
    List.nil_append, List.drop_drop]
  by_cases hk : k ≤ (differences a b).length
  · rw [List.length_take, Nat.min_eq_left hk, Nat.sub_self, Nat.add_zero]
  · -- the order does not change before the end
    have hlen : (differences b a).length ≤ k := by
      rw [length_differences] at hk ⊢
      omega
    rw [List.drop_eq_nil_of_le hlen, List.drop_eq_nil_of_le (by omega)]

theorem forall₂_reoriented_differences (a b : List Float) :
    List.Forall₂ Norm.Reoriented (differences a b) (differences b a) := by
  induction a generalizing b with
  | nil => cases b <;> exact .nil
  | cons x a ih =>
    cases b with
    | nil => exact .nil
    | cons y b => exact .cons ⟨x, y, rfl, .inr rfl⟩ (ih b)

theorem forall₂_reoriented_self (a b : List Float) :
    List.Forall₂ Norm.Reoriented (differences a b) (differences a b) := by
  induction a generalizing b with
  | nil => cases b <;> exact .nil
  | cons x a ih =>
    cases b with
    | nil => exact .nil
    | cons y b => exact .cons ⟨x, y, rfl, .inl rfl⟩ (ih b)

theorem forall₂_reoriented_mixed (k : ℕ) (a b : List Float) :
    List.Forall₂ Norm.Reoriented (differences a b) (mixedDifferences k a b) := by
  have htake := List.forall₂_take k (forall₂_reoriented_self a b)
  have hdrop := List.forall₂_drop k (forall₂_reoriented_differences a b)
  have happend := List.rel_append htake hdrop
  change List.Forall₂ _ ((differences a b).take k ++ (differences a b).drop k) _ at happend
  rwa [List.take_append_drop] at happend

variable {norm : Norm}

namespace Norm.SwapEven

/-- For a norm that does not look at the order of operands, it does not matter where the order of
the rows changes. -/
theorem fold_take_mixed (h : norm.SwapEven) (k p : ℕ) (a b : List Float) :
    norm.fold ((mixedDifferences k a b).take p) = norm.fold ((differences a b).take p) :=
  (h.foldl_congr (List.forall₂_take p (forall₂_reoriented_mixed k a b)) 0).symm

theorem fold_mixed (h : norm.SwapEven) (k : ℕ) (a b : List Float) :
    norm.fold (mixedDifferences k a b) = norm.fold (differences a b) :=
  (h.foldl_congr (forall₂_reoriented_mixed k a b) 0).symm

theorem fold_take_comm (h : norm.SwapEven) (p : ℕ) (a b : List Float) :
    norm.fold ((differences a b).take p) = norm.fold ((differences b a).take p) :=
  (h.fold_take_mixed 0 p a b).symm

theorem fold_comm (h : norm.SwapEven) (a b : List Float) :
    norm.fold (differences a b) = norm.fold (differences b a) :=
  (h.fold_mixed 0 a b).symm

end Norm.SwapEven

namespace PartialDistance

variable {bound : Float} {cell : PartialDistance}

/-! ### Where a fold stops -/

/-- A fold stops at the first accumulator that is not below the bound, or at the end. -/
theorem exists_extend_eq (norm : Norm) (bound : Float) (cell : PartialDistance)
    (xs ys : List Float) :
    ∃ k ≤ (differences xs ys).length,
      cell.extend norm bound xs ys =
        ⟨((differences xs ys).take k).foldl norm.accumulate cell.value, cell.progress + k⟩ ∧
      (∀ i < k, ((differences xs ys).take i).foldl norm.accumulate cell.value < bound) ∧
      (k = (differences xs ys).length ∨ ¬ (cell.extend norm bound xs ys).value < bound) := by
  induction xs generalizing cell ys with
  | nil => exact ⟨0, Nat.zero_le _, rfl, by omega, .inl rfl⟩
  | cons x xs ih =>
    cases ys with
    | nil => exact ⟨0, Nat.zero_le _, rfl, by omega, .inl rfl⟩
    | cons y ys =>
      -- below the bound one component is folded and the rest is the induction hypothesis
      by_cases h : cell.value < bound
      · obtain ⟨k, hk, heq, hbelow, hstop⟩ :=
          ih ⟨norm.accumulate cell.value (x - y), cell.progress + 1⟩ ys
        have hext : cell.extend norm bound (x :: xs) (y :: ys) = PartialDistance.extend norm bound
            ⟨norm.accumulate cell.value (x - y), cell.progress + 1⟩ xs ys := by
          simp only [extend, h, ↓reduceIte]
        have hcons : differences (x :: xs) (y :: ys) = (x - y) :: differences xs ys := rfl
        refine ⟨k + 1, by rw [hcons]; exact Nat.succ_le_succ hk, ?_, ?_, ?_⟩
        · rw [hext, heq, hcons, List.take_succ_cons, List.foldl_cons, Nat.add_right_comm,
            Nat.add_assoc]
        · intro i hi
          cases i with
          | zero => exact h
          | succ i => exact hbelow i (Nat.lt_of_succ_lt_succ hi)
        · rw [hext, hcons, List.length_cons, Nat.succ_inj]
          exact hstop
      · rw [extend_of_not_lt _ _ h]
        exact ⟨0, Nat.zero_le _, rfl, by omega, .inr h⟩

/-- The same for a fold that is resumed. -/
theorem exists_resume_eq (norm : Norm) (x y : List Float) (bound : Float)
    (cell : PartialDistance) :
    ∃ k ≤ (differences x y).length - cell.progress,
      cell.resume norm x y bound =
        ⟨(((differences x y).drop cell.progress).take k).foldl norm.accumulate cell.value,
          cell.progress + k⟩ ∧
      (k = (differences x y).length - cell.progress ∨
        ¬ (cell.resume norm x y bound).value < bound) := by
  obtain ⟨k, hk, heq, -, hstop⟩ :=
    exists_extend_eq norm bound cell (x.drop cell.progress) (y.drop cell.progress)
  rw [differences_drop] at hk heq hstop
  rw [List.length_drop] at hk hstop
  exact ⟨k, hk, heq, hstop⟩

theorem progress_le_resume (x y : List Float) :
    cell.progress ≤ (cell.resume norm x y bound).progress :=
  progress_le_extend _ _

/-- Folds stop at a NaN anyway. -/
theorem extend_sticky (xs ys : List Float) :
    cell.extend norm.sticky bound xs ys = cell.extend norm bound xs ys := by
  induction xs generalizing cell ys with
  | nil => rfl
  | cons x xs ih =>
    cases ys with
    | nil => rfl
    | cons y ys =>
      -- an accumulator below a bound is not a NaN
      by_cases h : cell.value < bound
      · simp only [extend, h, ↓reduceIte, ih,
          Norm.sticky_accumulate (Scalar.isNaN_left_of_lt h)]
      · rw [extend_of_not_lt _ _ h, extend_of_not_lt _ _ h]

@[simp] theorem resume_sticky (x y : List Float) :
    cell.resume norm.sticky x y bound = cell.resume norm x y bound :=
  extend_sticky _ _

/-! ### Folds under several bounds -/

/-- The number of components that `extend` folds. -/
def extendCount (norm : Norm) (bound : Float) :
    PartialDistance → List Float → List Float → ℕ
  | cell, x :: xs, y :: ys =>
    if cell.value < bound then
      extendCount norm bound ⟨norm.accumulate cell.value (x - y), cell.progress + 1⟩ xs ys + 1
    else 0
  | _, _, _ => 0

/-- The number of components that `resume` folds. -/
def resumeCount (norm : Norm) (x y : List Float) (bound : Float) (cell : PartialDistance) : ℕ :=
  cell.extendCount norm bound (x.drop cell.progress) (y.drop cell.progress)

variable {bound' : Float}

theorem extendCount_of_not_lt (xs ys : List Float) (h : ¬ cell.value < bound) :
    cell.extendCount norm bound xs ys = 0 := by
  cases xs with
  | nil => rfl
  | cons x xs =>
    cases ys with
    | nil => rfl
    | cons y ys => simp only [extendCount, h, ↓reduceIte]

/-- Progress counts what is folded. -/
theorem progress_extend (xs ys : List Float) :
    (cell.extend norm bound xs ys).progress =
      cell.progress + cell.extendCount norm bound xs ys := by
  induction xs generalizing cell ys with
  | nil => rfl
  | cons x xs ih =>
    cases ys with
    | nil => rfl
    | cons y ys =>
      by_cases h : cell.value < bound
      · simp only [extend, extendCount, h, ↓reduceIte, ih]
        omega
      · rw [extend_of_not_lt _ _ h, extendCount_of_not_lt _ _ h, Nat.add_zero]

theorem progress_resume (x y : List Float) :
    (cell.resume norm x y bound).progress =
      cell.progress + cell.resumeCount norm x y bound :=
  progress_extend _ _

/-- Going on under a bound that is not smaller is as if that bound had been there from the start. -/
theorem extend_extend_of_le (h : bound ≤ bound') (xs ys : List Float) :
    (cell.extend norm bound xs ys).extend norm bound'
        (xs.drop (cell.extendCount norm bound xs ys))
        (ys.drop (cell.extendCount norm bound xs ys)) =
      cell.extend norm bound' xs ys := by
  induction xs generalizing cell ys with
  | nil => simp only [List.drop_nil, extend]
  | cons x xs ih =>
    cases ys with
    | nil => rfl
    | cons y ys =>
      by_cases hlt : cell.value < bound
      · have hlt' : cell.value < bound' := Scalar.lt_of_lt_of_le hlt h
        simp only [extend, extendCount, hlt, hlt', ↓reduceIte, List.drop_succ_cons]
        exact ih ys
      · rw [extend_of_not_lt _ _ hlt, extendCount_of_not_lt _ _ hlt, List.drop_zero, List.drop_zero]

/-- Going on under a bound that is not larger changes nothing. -/
theorem extend_extend_of_ge (h : bound' ≤ bound) (xs ys : List Float) :
    (cell.extend norm bound xs ys).extend norm bound'
        (xs.drop (cell.extendCount norm bound xs ys))
        (ys.drop (cell.extendCount norm bound xs ys)) =
      cell.extend norm bound xs ys := by
  induction xs generalizing cell ys with
  | nil => simp only [List.drop_nil, extend]
  | cons x xs ih =>
    cases ys with
    | nil => rfl
    | cons y ys =>
      by_cases hlt : cell.value < bound
      · simp only [extend, extendCount, hlt, ↓reduceIte, List.drop_succ_cons]
        exact ih ys
      · have hlt' : ¬ cell.value < bound' := fun hb => hlt (Scalar.lt_of_lt_of_le hb h)
        rw [extend_of_not_lt _ _ hlt, extend_of_not_lt _ _ hlt']

theorem drop_progress_extend (l xs ys : List Float) :
    l.drop (cell.extend norm bound xs ys).progress =
      (l.drop cell.progress).drop (cell.extendCount norm bound xs ys) := by
  rw [progress_extend, List.drop_drop]

/-- **Resuming under a bound that is not smaller** is as if that bound had been there from the
start. -/
theorem resume_resume_of_le (h : bound ≤ bound') (x y : List Float) :
    (cell.resume norm x y bound).resume norm x y bound' = cell.resume norm x y bound' := by
  rw [resume, resume, drop_progress_extend, drop_progress_extend]
  exact extend_extend_of_le h _ _

/-- **Resuming under a bound that is not larger** changes nothing. -/
theorem resume_resume_of_ge (h : bound' ≤ bound) (x y : List Float) :
    (cell.resume norm x y bound).resume norm x y bound' = cell.resume norm x y bound := by
  rw [resume, resume, drop_progress_extend, drop_progress_extend]
  exact extend_extend_of_ge h _ _

/-- **Of two bounds, only the larger one matters.** -/
theorem resume_resume (h : bound.isNaN = false) (h' : bound'.isNaN = false) (x y : List Float) :
    (cell.resume norm x y bound).resume norm x y bound' =
      cell.resume norm x y (Scalar.larger bound bound') := by
  by_cases hlt : bound < bound'
  · rw [Scalar.larger_of_lt hlt, resume_resume_of_le (Scalar.le_of_lt hlt)]
  · rw [Scalar.larger_of_not_lt h hlt, resume_resume_of_ge (Scalar.le_of_not_lt h' h hlt)]

theorem resume_resume_cases (h : bound.isNaN = false) (h' : bound'.isNaN = false)
    (x y : List Float) :
    (cell.resume norm x y bound).resume norm x y bound' = cell.resume norm x y bound' ∨
      (cell.resume norm x y bound).resume norm x y bound' = cell.resume norm x y bound := by
  rw [resume_resume h h']
  rcases Scalar.larger_eq_or h bound' with heq | heq <;> rw [heq]
  · exact .inr rfl
  · exact .inl rfl

/-- A complete fold stays as it is. -/
theorem resume_of_complete (x y : List Float) (h : x.length ≤ cell.progress) :
    cell.resume norm x y bound = cell := by
  rw [resume, List.drop_eq_nil_of_le h]
  rfl

/-- A larger bound lets a fold go at least as far. -/
theorem progress_resume_le (h : bound ≤ bound') (x y : List Float) :
    (cell.resume norm x y bound).progress ≤ (cell.resume norm x y bound').progress := by
  rw [← resume_resume_of_le h]
  exact progress_le_resume x y

theorem resumeCount_le (h : bound ≤ bound') (x y : List Float) :
    cell.resumeCount norm x y bound ≤ cell.resumeCount norm x y bound' := by
  have hle : (cell.resume norm x y bound).progress ≤ (cell.resume norm x y bound').progress :=
    progress_resume_le h x y
  rw [progress_resume, progress_resume] at hle
  omega

/-- Folding under one bound leaves no more to fold under another one. -/
theorem resumeCount_resume_le (h : bound.isNaN = false) (h' : bound'.isNaN = false)
    (x y : List Float) :
    (cell.resume norm x y bound).resumeCount norm x y bound' ≤
      cell.resumeCount norm x y bound' := by
  have honce : (cell.resume norm x y bound).progress =
      cell.progress + cell.resumeCount norm x y bound := progress_resume x y
  have htwice : ((cell.resume norm x y bound).resume norm x y bound').progress =
      (cell.resume norm x y bound).progress +
        (cell.resume norm x y bound).resumeCount norm x y bound' := progress_resume x y
  have hcases : _ ∨ (cell.resume norm x y bound).resume norm x y bound' =
      cell.resume norm x y bound := resume_resume_cases h h' x y
  rcases hcases with heq | heq
  · rw [heq, progress_resume] at htwice
    omega
  · rw [heq] at htwice
    omega

/-- Only the order of the bound among the accumulators matters. -/
theorem resume_eq_of_le_of_le (h : bound ≤ bound') (h' : bound' ≤ bound) (x y : List Float) :
    cell.resume norm x y bound = cell.resume norm x y bound' := by
  rw [← resume_resume_of_le h, resume_resume_of_ge h']

theorem extend_comm (h : norm.SwapEven) (xs ys : List Float) :
    cell.extend norm bound xs ys = cell.extend norm bound ys xs := by
  induction xs generalizing cell ys with
  | nil => cases ys <;> rfl
  | cons x xs ih =>
    cases ys with
    | nil => rfl
    | cons y ys => simp only [extend, h cell.value x y, ih]

/-- For a norm that does not look at the order of operands, a fold may be resumed from either
side. -/
theorem resume_comm (h : norm.SwapEven) (x y : List Float) :
    cell.resume norm x y bound = cell.resume norm y x bound :=
  extend_comm h _ _

/-! ### Folds of first components -/

/-- The cell stands after some first ones of the given differences. -/
structure IsPrefix (norm : Norm) (ds : List Float) (cell : PartialDistance) : Prop where
  /-- No component is counted that is not there. -/
  progress_le : cell.progress ≤ ds.length
  /-- Every counted component is folded, in order. -/
  value_eq : cell.value = norm.fold (ds.take cell.progress)

theorem isPrefix_start (norm : Norm) (ds : List Float) : IsPrefix norm ds start :=
  ⟨Nat.zero_le _, rfl⟩

namespace IsPrefix

variable {ds es : List Float}

/-- Only the components that are already folded matter. -/
theorem congr (h : IsPrefix norm ds cell) (hlen : ds.length = es.length)
    (htake : ds.take cell.progress = es.take cell.progress) : IsPrefix norm es cell :=
  ⟨hlen ▸ h.progress_le, htake ▸ h.value_eq⟩

/-- The differences may change their order where the cell stands. -/
theorem mixed_iff {x y : List Float} :
    IsPrefix norm (mixedDifferences cell.progress x y) cell ↔
      IsPrefix norm (differences x y) cell := by
  have hlen : (mixedDifferences cell.progress x y).length = (differences x y).length := by simp
  have htake := take_mixedDifferences (Nat.le_refl cell.progress) x y
  exact ⟨fun h => h.congr hlen htake, fun h => h.congr hlen.symm htake.symm⟩

theorem value_of_complete (h : IsPrefix norm ds cell) (hc : cell.progress = ds.length) :
    cell.value = norm.fold ds := by
  rw [h.value_eq, hc, List.take_length]

/-- A resumed fold is one of first components, and it is complete or not below the bound.  The rows
that it goes on with only have to give the components that are not folded yet. -/
theorem resume (h : IsPrefix norm ds cell) {x y : List Float}
    (hlen : (differences x y).length = ds.length)
    (hdrop : (differences x y).drop cell.progress = ds.drop cell.progress) (bound : Float) :
    IsPrefix norm ds (cell.resume norm x y bound) ∧
      ((cell.resume norm x y bound).progress = ds.length ∨
        ¬ (cell.resume norm x y bound).value < bound) := by
  obtain ⟨k, hk, heq, hstop⟩ := exists_resume_eq norm x y bound cell
  have hle := h.progress_le
  rw [hlen] at hk hstop
  refine ⟨⟨?_, ?_⟩, ?_⟩
  · rw [heq]
    change cell.progress + k ≤ ds.length
    omega
  · rw [heq, hdrop, h.value_eq, Norm.fold, Norm.fold, ← List.foldl_append, ← List.take_add]
  · rcases hstop with rfl | hstop
    · refine .inl ?_
      rw [heq]
      change cell.progress + (ds.length - cell.progress) = ds.length
      omega
    · exact .inr hstop

/-- **Stopping at the best accumulator loses nothing.** -/
theorem improve_eq (h : IsPrefix norm ds cell) (hn : norm.Ascending) {best : Float}
    (hstop : cell.progress = ds.length ∨ ¬ cell.value < best) :
    improve best cell.value = improve best (norm.fold ds) := by
  rcases hstop with hc | hnot
  · rw [h.value_of_complete hc]
  · -- the rest of the fold does not lead below the bound
    have hfold : norm.fold ds = (ds.drop cell.progress).foldl norm.accumulate cell.value := by
      rw [h.value_eq, Norm.fold, Norm.fold, ← List.foldl_append, List.take_append_drop]
    have hpos : ¬ cell.value < 0 := h.value_eq ▸ hn.not_fold_lt_zero _
    rw [improve_of_not_lt hnot, hfold, improve_of_not_lt (hn.not_foldl_lt _ hpos hnot)]

end IsPrefix

end PartialDistance

end Proximity
