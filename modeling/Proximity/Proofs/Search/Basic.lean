import Mathlib.Data.Set.Insert
import Proximity.Proofs.Binary64.Value
import Proximity.Search.Basic

/-!
# The nearest row, as a specification

What a search looks for: the least accumulator of a row with another row that is below infinity, or
infinity if there is none.

* `IsNearest` : that specification, for a set of accumulators, and `otherValues`, the set of a row.
* `IsNearest.improve`, `IsNearest.foldl_improve` : keeping the better accumulator establishes it.
* `IsNearest.eq` : **there is only one such accumulator**, bit for bit, if the negative zero is not
  among them.
* `getElem?_others` : the place of a row among the others.
-/

namespace Proximity

/-! ### The other rows -/

theorem filter_zipIdx_eq_eraseIdx {α : Type} (l : List α) (n t : ℕ) :
    (l.zipIdx n).filter (fun a => a.2 != n + t) = (l.zipIdx n).eraseIdx t := by
  induction l generalizing n t with
  | nil => rfl
  | cons a l ih =>
    cases t with
    | zero =>
      -- the rows behind the one that is left out have larger indices
      have hall : (l.zipIdx (n + 1)).filter (fun a => a.2 != n + 0) = l.zipIdx (n + 1) := by
        refine List.filter_eq_self.2 ?_
        intro b hb
        have := List.le_snd_of_mem_zipIdx hb
        simp only [bne_iff_ne]
        omega
      rw [List.zipIdx_cons, List.filter_cons_of_neg (by simp), hall]
      rfl
    | succ t =>
      have hne : (n != n + (t + 1)) = true := by
        simp only [bne_iff_ne]
        omega
      rw [List.zipIdx_cons, List.filter_cons, if_pos hne, List.eraseIdx_cons_succ, ← ih]
      simp only [Nat.add_comm t 1, Nat.add_assoc]

theorem others_eq_eraseIdx (rows : Observations) (t : ℕ) :
    others rows t = rows.zipIdx.eraseIdx t := by
  rw [← filter_zipIdx_eq_eraseIdx rows 0 t, Nat.zero_add]
  rfl

theorem length_others {rows : Observations} {t : ℕ} (h : t < rows.length) :
    (others rows t).length = rows.length - 1 := by
  rw [others_eq_eraseIdx, List.length_eraseIdx_of_lt (by rwa [List.length_zipIdx]),
    List.length_zipIdx]

/-- The rows before row `t` keep their place among the others, and those after it move up by
one. -/
theorem getElem?_others (rows : Observations) (t k : ℕ) :
    (others rows t)[k]? =
      if k < t then rows[k]?.map (·, k) else rows[k + 1]?.map (·, k + 1) := by
  rw [others_eq_eraseIdx, List.getElem?_eraseIdx]
  split_ifs <;> rw [List.getElem?_zipIdx, Nat.zero_add]

/-- Visit number `k` of a pass over row `t` is to row `k` if this is an earlier row, and to row
`k + 1` otherwise. -/
theorem getElem?_others_eq_some_iff {rows : Observations} {t k u : ℕ} {y : List Float} :
    (others rows t)[k]? = some (y, u) ↔
      rows[u]? = some y ∧ (u < t ∧ u = k ∨ t < u ∧ u = k + 1) := by
  rw [getElem?_others]
  split_ifs with hk
  · simp only [Option.map_eq_some_iff, Prod.mk.injEq]
    constructor
    · rintro ⟨y, hy, rfl, rfl⟩
      exact ⟨hy, .inl ⟨hk, rfl⟩⟩
    · rintro ⟨hy, ⟨-, rfl⟩ | ⟨ht, rfl⟩⟩
      · exact ⟨y, hy, rfl, rfl⟩
      · omega
  · simp only [Option.map_eq_some_iff, Prod.mk.injEq]
    constructor
    · rintro ⟨y, hy, rfl, rfl⟩
      exact ⟨hy, .inr ⟨by omega, rfl⟩⟩
    · rintro ⟨hy, ⟨ht, rfl⟩ | ⟨-, rfl⟩⟩
      · omega
      · exact ⟨y, hy, rfl, rfl⟩

/-- The rows that the first `k` visits of a pass over row `t` are to. -/
theorem mem_take_others {rows : Observations} {t k u : ℕ} {y : List Float} :
    (y, u) ∈ (others rows t).take k ↔
      rows[u]? = some y ∧ (u < t ∧ u < k ∨ t < u ∧ u ≤ k) := by
  rw [List.mem_iff_getElem?]
  constructor
  · rintro ⟨i, hi⟩
    rw [List.getElem?_take] at hi
    split_ifs at hi with hik
    obtain ⟨hy, hu⟩ := getElem?_others_eq_some_iff.1 hi
    exact ⟨hy, by omega⟩
  · rintro ⟨hy, hu⟩
    obtain ⟨i, hik, hi⟩ : ∃ i < k, u < t ∧ u = i ∨ t < u ∧ u = i + 1 := by
      rcases hu with hu | hu
      · exact ⟨u, by omega⟩
      · exact ⟨u - 1, by omega⟩
    exact ⟨i, by rw [List.getElem?_take, if_pos hik, getElem?_others_eq_some_iff.2 ⟨hy, hi⟩]⟩

theorem exists_other {rows : Observations} {t k : ℕ} (ht : t < rows.length)
    (hk : k < rows.length - 1) :
    ∃ u y, rows[u]? = some y ∧ (u < t ∧ u = k ∨ t < u ∧ u = k + 1) := by
  obtain ⟨⟨y, u⟩, hother⟩ : ∃ other, (others rows t)[k]? = some other :=
    ⟨_, List.getElem?_eq_getElem (by rwa [length_others ht])⟩
  exact ⟨u, y, getElem?_others_eq_some_iff.1 hother⟩

@[simp] theorem length_finishAll (norm : Norm) (dims : ℕ) (bests : List Float) :
    (finishAll norm dims bests).length = bests.length := List.length_map _

theorem getElem?_finishAll (norm : Norm) (dims t : ℕ) (bests : List Float) :
    (finishAll norm dims bests)[t]? = bests[t]?.map fun best => norm.finish best dims :=
  List.getElem?_map

/-! ### The nearest row -/

/-- The accumulators that `value` gives for row `t` and the other rows. -/
def otherValues (rows : Observations) (t : ℕ) (value : ℕ → List Float → Float) : Set Float :=
  {v | ∃ u y, u ≠ t ∧ rows[u]? = some y ∧ value u y = v}

theorem otherValues_eq (rows : Observations) (t : ℕ) (value : ℕ → List Float → Float) :
    otherValues rows t value =
      {v | v ∈ (others rows t).map fun other => value other.2 other.1} := by
  ext v
  simp only [otherValues, Set.mem_ofPred_eq, List.mem_map, Prod.exists, mem_others]
  constructor
  · rintro ⟨u, y, hut, hy, rfl⟩
    exact ⟨y, u, ⟨hy, hut⟩, rfl⟩
  · rintro ⟨y, u, ⟨hy, hut⟩, rfl⟩
    exact ⟨u, y, hut, hy, rfl⟩

/-- The least of the given accumulators that is below infinity, or infinity if there is none. -/
structure IsNearest (values : Set Float) (m : Float) : Prop where
  /-- It is one of them, or infinity. -/
  attained : m = Scalar.infinity ∨ m ∈ values ∧ m < Scalar.infinity
  /-- None of those below infinity is smaller. -/
  le : ∀ v ∈ values, v < Scalar.infinity → m ≤ v

namespace IsNearest

variable {values : Set Float} {best m m' : Float}

theorem empty : IsNearest ∅ Scalar.infinity := ⟨.inl rfl, fun _ hv => hv.elim⟩

theorem isNaN_eq_false (h : IsNearest values m) : m.isNaN = false := by
  rcases h.attained with rfl | ⟨-, hlt⟩
  · exact Scalar.isNaN_infinity
  · exact Scalar.isNaN_left_of_lt hlt

theorem le_infinity (h : IsNearest values m) : m ≤ Scalar.infinity := by
  rcases h.attained with rfl | ⟨-, hlt⟩
  · exact Scalar.le_refl Scalar.isNaN_infinity
  · exact Scalar.le_of_lt hlt

/-- The nearest one is not larger if there is an accumulator that is not larger for each one below
infinity. -/
theorem le_of_forall_exists_le {values' : Set Float} (h : IsNearest values m)
    (h' : IsNearest values' m')
    (hle : ∀ v' ∈ values', v' < Scalar.infinity → ∃ v ∈ values, v ≤ v') : m ≤ m' := by
  rcases h'.attained with rfl | ⟨hmem, hlt⟩
  · exact h.le_infinity
  · obtain ⟨v, hv, hvle⟩ := hle m' hmem hlt
    exact Scalar.le_trans (h.le v hv (Scalar.lt_of_le_of_lt hvle hlt)) hvle

/-- Among more accumulators the nearest one is not larger. -/
theorem le_of_subset {values' : Set Float} (h : IsNearest values m) (h' : IsNearest values' m')
    (hsub : values ⊆ values') : m' ≤ m := by
  refine h'.le_of_forall_exists_le h ?_
  intro v hv hlt
  exact ⟨v, hsub hv, Scalar.le_refl (Scalar.isNaN_left_of_lt hlt)⟩

/-- If no accumulator is below infinity, there is no nearest one. -/
theorem eq_infinity (h : IsNearest values m) (hvalues : ∀ v ∈ values, ¬ v < Scalar.infinity) :
    m = Scalar.infinity := by
  rcases h.attained with heq | ⟨hmem, hlt⟩
  · exact heq
  · exact absurd hlt (hvalues m hmem)

/-- Only the accumulators below infinity matter. -/
theorem congr {values' : Set Float} (h : IsNearest values m)
    (hvalues : ∀ v, v < Scalar.infinity → (v ∈ values ↔ v ∈ values')) : IsNearest values' m where
  attained := h.attained.imp_right fun ⟨hmem, hlt⟩ => ⟨(hvalues m hlt).1 hmem, hlt⟩
  le v hv hlt := h.le v ((hvalues v hlt).2 hv) hlt

/-- Keeping the better of the best accumulator and a new one. -/
theorem improve (h : IsNearest values best) (v : Float) :
    IsNearest (insert v values) (improve best v) := by
  by_cases hv : v < best
  · rw [improve_of_lt hv]
    refine ⟨.inr ⟨Set.mem_insert v values, ?_⟩, ?_⟩
    · rcases h.attained with rfl | ⟨-, hlt⟩
      · exact hv
      · exact Scalar.lt_trans hv hlt
    · rintro w (rfl | hw) hlt
      · exact Scalar.le_refl (Scalar.isNaN_left_of_lt hv)
      · exact Scalar.le_trans (Scalar.le_of_lt hv) (h.le w hw hlt)
  · rw [improve_of_not_lt hv]
    refine ⟨h.attained.imp_right fun ⟨hmem, hlt⟩ => ⟨Set.mem_insert_of_mem v hmem, hlt⟩, ?_⟩
    rintro w (rfl | hw) hlt
    · exact Scalar.le_of_not_lt h.isNaN_eq_false (Scalar.isNaN_left_of_lt hlt) hv
    · exact h.le w hw hlt

/-- Keeping the best of several accumulators. -/
theorem foldl_improve (h : IsNearest values best) (vs : List Float) :
    IsNearest (values ∪ {v | v ∈ vs}) (vs.foldl Proximity.improve best) := by
  induction vs generalizing values best with
  | nil => simpa using h
  | cons v vs ih =>
    have hset : values ∪ {w | w ∈ v :: vs} = insert v values ∪ {w | w ∈ vs} := by
      ext w
      simp only [Set.mem_union, Set.mem_ofPred_eq, List.mem_cons, Set.mem_insert_iff]
      tauto
    rw [hset]
    exact ih (h.improve v)

/-- **There is one nearest accumulator**, unless the negative zero could be one. -/
theorem eq (h : IsNearest values m) (hzero : ∀ v ∈ values, v ≠ -0) (h' : IsNearest values m') :
    m = m' := by
  have hinf : Scalar.infinity ≠ -0 := by decide
  have hne : ∀ {w}, IsNearest values w → w ≠ -0 := by
    intro w hw
    rcases hw.attained with rfl | ⟨hmem, -⟩
    · exact hinf
    · exact hzero w hmem
  have hle := h.le_of_subset h' Set.Subset.rfl
  have hle' := h'.le_of_subset h Set.Subset.rfl
  refine Scalar.eq_of_not_lt h.isNaN_eq_false h'.isNaN_eq_false (hne h) (hne h') ?_ ?_
  · exact fun hlt => Scalar.lt_irrefl _ (Scalar.lt_of_le_of_lt hle hlt)
  · exact fun hlt => Scalar.lt_irrefl _ (Scalar.lt_of_le_of_lt hle' hlt)

theorem eq_of_otherValues {rows : Observations} {t : ℕ} {value : ℕ → List Float → Float}
    (hzero : ∀ u y, value u y ≠ -0) (h : IsNearest (otherValues rows t value) m)
    (h' : IsNearest (otherValues rows t value) m') : m = m' := by
  refine h.eq ?_ h'
  rintro v ⟨u, y, -, -, rfl⟩
  exact hzero u y

end IsNearest

end Proximity
