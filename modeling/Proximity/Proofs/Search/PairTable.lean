import Mathlib.Tactic.Ring
import Proximity.Search.PairTable

/-!
# Addresses in the table of pairs

Two pairs never share a place, and every pair of rows has one: the pairs below row `h` take the
places from `cellCount h` on, up to `cellCount (h + 1)`.  So a write to one pair leaves the others
alone.

* `PairTable.key_lt_cellCount` : every pair has a place.
* `PairTable.key_inj` : two pairs with one place are the same pair.
* `PairTable.get_set_self`, `PairTable.get_set_of_ne` : what a write changes.
-/

namespace Proximity

namespace PairTable

/-- Row `n` adds its pairs with the `n` rows before it. -/
theorem cellCount_succ (n : ℕ) : cellCount (n + 1) = cellCount n + n := by
  cases n with
  | zero => rfl
  | succ n =>
    rw [cellCount, cellCount, Nat.add_sub_cancel, Nat.add_sub_cancel,
      show (n + 1 + 1) * (n + 1) = (n + 1) * n + (n + 1) * 2 by ring,
      Nat.add_mul_div_right _ _ Nat.two_pos]

theorem cellCount_le_cellCount {m n : ℕ} (h : m ≤ n) : cellCount m ≤ cellCount n := by
  induction n, h using Nat.le_induction with
  | base => exact Nat.le_refl _
  | succ n _ ih =>
    rw [cellCount_succ]
    exact Nat.le_add_right_of_le ih

variable {lo hi lo' hi' n : ℕ}

/-- The place of a pair, from its smaller row on. -/
theorem key_eq (h : lo < hi) : key lo hi = cellCount hi + lo := by
  rw [key_comm, key_of_lt h]

theorem key_lt_cellCount_succ (h : lo < hi) : key lo hi < cellCount (hi + 1) := by
  rw [key_eq h, cellCount_succ]
  exact Nat.add_lt_add_left h _

/-- Every pair has a place. -/
theorem key_lt_cellCount (h : lo < hi) (hn : hi < n) : key lo hi < cellCount n :=
  Nat.lt_of_lt_of_le (key_lt_cellCount_succ h) (cellCount_le_cellCount hn)

/-- The same for rows in either order. -/
theorem key_lt_cellCount_of_ne {t u : ℕ} (htu : t ≠ u) (ht : t < n) (hu : u < n) :
    key t u < cellCount n := by
  rcases Nat.lt_or_gt_of_ne htu with hlt | hgt
  · exact key_lt_cellCount hlt hu
  · rw [key_comm]
    exact key_lt_cellCount hgt ht

theorem key_lt_key (h : lo < hi) (h' : lo' < hi') (hhi : hi < hi') : key lo hi < key lo' hi' :=
  calc key lo hi < cellCount (hi + 1) := key_lt_cellCount_succ h
    _ ≤ cellCount hi' := cellCount_le_cellCount hhi
    _ ≤ key lo' hi' := by rw [key_eq h']; exact Nat.le_add_right _ _

/-- Two pairs with the same place are the same pair. -/
theorem key_inj (h : lo < hi) (h' : lo' < hi') (heq : key lo hi = key lo' hi') :
    lo = lo' ∧ hi = hi' := by
  rcases Nat.lt_trichotomy hi hi' with hlt | rfl | hgt
  · exact absurd heq (Nat.ne_of_lt (key_lt_key h h' hlt))
  · rw [key_eq h, key_eq h'] at heq
    exact ⟨Nat.add_left_cancel heq, rfl⟩
  · exact absurd heq.symm (Nat.ne_of_lt (key_lt_key h' h hgt))

/-- The rows of a pair are found from its place, in either order. -/
theorem eq_of_key_eq {t u : ℕ} (htu : t ≠ u) (h : lo < hi) (heq : key t u = key lo hi) :
    t = lo ∧ u = hi ∨ t = hi ∧ u = lo := by
  rcases Nat.lt_or_gt_of_ne htu with hlt | hgt
  · exact .inl (key_inj hlt h heq)
  · rw [key_comm] at heq
    obtain ⟨rfl, rfl⟩ := key_inj hgt h heq
    exact .inr ⟨rfl, rfl⟩

/-- The pairs of one row with two others share a place only if these are the same row. -/
theorem key_right_inj {t u w : ℕ} (hu : t ≠ u) (hw : t ≠ w) (heq : key t u = key t w) : u = w := by
  rcases Nat.lt_or_gt_of_ne hw with hlt | hgt
  · have := eq_of_key_eq hu hlt heq
    omega
  · rw [key_comm t w] at heq
    have := eq_of_key_eq hu hgt heq
    omega

/-! ### Machine words -/

theorem mul_pred_lt_size {t u : ℕ} (ht : t < n) (hu : u < n) (hn : n * (n - 1) < UInt64.size) :
    max t u * (max t u - 1) < UInt64.size := by
  have hmax : max t u < n := Nat.max_lt.2 ⟨ht, hu⟩
  exact Nat.lt_of_le_of_lt (Nat.mul_le_mul hmax.le (Nat.sub_le_sub_right hmax.le 1)) hn

theorem key_lt_size {t u : ℕ} (htu : t ≠ u) (ht : t < n) (hu : u < n)
    (hn : n * (n - 1) < UInt64.size) : key t u < UInt64.size :=
  calc key t u < cellCount n := key_lt_cellCount_of_ne htu ht hu
    _ ≤ n * (n - 1) := Nat.div_le_self _ _
    _ < UInt64.size := hn

/-! ### Cells -/

variable {table : PairTable} {cell : PartialDistance}

@[simp] theorem get_start (n i j : ℕ) : (start n).get i j = .start := by
  rw [start, get, Array.getD_eq_getD_getElem?, Array.getElem?_replicate]
  split_ifs <;> rfl

theorem get_set_self {i j : ℕ} (h : key i j < table.cells.size) :
    (table.set i j cell).get i j = cell := by
  rw [get, set, Array.getD_eq_getD_getElem?, Array.getElem?_setIfInBounds_self_of_lt h]
  rfl

theorem get_set_of_ne {i j i' j' : ℕ} (h : key i j ≠ key i' j') :
    (table.set i j cell).get i' j' = table.get i' j' := by
  rw [get, get, set, Array.getD_eq_getD_getElem?, Array.getD_eq_getD_getElem?,
    Array.getElem?_setIfInBounds_ne h]

theorem getElem?_key {i j : ℕ} (h : key i j < table.cells.size) :
    table.cells[key i j]? = some (table.get i j) := by
  rw [get, Array.getD_eq_getD_getElem?, Array.getElem?_eq_getElem h]
  rfl

end PairTable

end Proximity
