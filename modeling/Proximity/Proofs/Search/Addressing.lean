import Mathlib.Data.Set.Function
import Mathlib.Order.Interval.Set.Defs
import Proximity.Norm.Variants
import Proximity.Proofs.Guarded.Search

/-!
# Addressing the table of pairs

The table of pairs has one place for every pair of rows and no place more, so a search that reads
and writes its cells never leaves the table and never mixes two pairs.  The place of a pair is
computed in machine words; nothing overflows on the way, as long as the table could be allocated.

* `PairTable.exists_key_eq` : every place belongs to a pair, by induction on the number of rows.
* `PairTable.toNat_wordKey` : the place that is computed in machine words is the place of the pair.
* `PairTable.key_bijOn` : **pairs and places correspond**, and what follows for tables and searches.
-/

namespace Proximity

namespace PairTable

variable {i j i' j' k n : ℕ}

/-! ### Pairs and places -/

/-- Every place belongs to a pair. -/
theorem exists_key_eq (hk : k < cellCount n) : ∃ lo hi, lo < hi ∧ hi < n ∧ key lo hi = k := by
  induction n with
  | zero => exact absurd hk (Nat.not_lt_zero k)
  | succ n ih =>
    -- the last places are those of the pairs with the last row
    by_cases hlt : k < cellCount n
    · obtain ⟨lo, hi, hpair, hhi, hkey⟩ := ih hlt
      exact ⟨lo, hi, hpair, Nat.lt_succ_of_lt hhi, hkey⟩
    · obtain ⟨lo, rfl⟩ := Nat.exists_eq_add_of_le (Nat.le_of_not_lt hlt)
      rw [cellCount_succ] at hk
      have hlo : lo < n := Nat.lt_of_add_lt_add_left hk
      exact ⟨lo, n, hlo, Nat.lt_succ_self n, key_eq hlo⟩

/-- Two pairs share a place only if they are the same pair, in either order of their rows. -/
theorem key_ne_key (hij : i ≠ j) (hij' : i' ≠ j')
    (hne : ¬ (i = i' ∧ j = j' ∨ i = j' ∧ j = i')) : key i j ≠ key i' j' := by
  intro heq
  rcases Nat.lt_or_gt_of_ne hij' with hlt | hgt
  · exact hne (eq_of_key_eq hij hlt heq)
  · rw [key_comm i' j'] at heq
    exact hne (eq_of_key_eq hij hgt heq).symm

/-! ### Machine words -/

/-- The place of the pair of rows `i` and `j`, computed in machine words. -/
def wordKey (i j : UInt64) : UInt64 :=
  let (lo, hi) := if i < j then (i, j) else (j, i)
  hi * (hi - 1) / 2 + lo

theorem wordKey_of_lt {i j : UInt64} (h : i < j) : wordKey i j = j * (j - 1) / 2 + i := by
  rw [wordKey, if_pos h]

theorem wordKey_comm {i j : UInt64} (h : i ≠ j) : wordKey i j = wordKey j i := by
  rcases UInt64.lt_or_lt_of_ne h with hlt | hgt
  · rw [wordKey, wordKey, if_pos hlt, if_neg (UInt64.lt_asymm hlt)]
  · rw [wordKey, wordKey, if_pos hgt, if_neg (UInt64.lt_asymm hgt)]

theorem toNat_wordKey_of_lt {i j : UInt64} (h : i < j) (hj : j.toNat < n)
    (hn : n * (n - 1) < UInt64.size) : (wordKey i j).toNat = key i.toNat j.toNat := by
  have hlt : i.toNat < j.toNat := UInt64.lt_iff_toNat_lt.1 h
  have hi : i.toNat < n := hlt.trans hj
  have hmul : j.toNat * (j.toNat - 1) < UInt64.size := by
    have := mul_pred_lt_size hi hj hn
    rwa [Nat.max_eq_right hlt.le] at this
  have hkey : j.toNat * (j.toNat - 1) / 2 + i.toNat < UInt64.size := by
    have := key_lt_size hlt.ne hi hj hn
    rwa [key_eq hlt] at this
  have hpred : (j - 1).toNat = j.toNat - 1 :=
    UInt64.toNat_sub_of_le _ _ (UInt64.le_iff_toNat_le.2 (Nat.one_le_of_lt hlt))
  have hproduct : (j * (j - 1)).toNat = j.toNat * (j.toNat - 1) := by
    rw [UInt64.toNat_mul, hpred]
    exact Nat.mod_eq_of_lt hmul
  rw [wordKey_of_lt h, UInt64.toNat_add, UInt64.toNat_div, hproduct, key_eq hlt]
  exact Nat.mod_eq_of_lt hkey

/-- **The place that is computed in machine words is the place of the pair**, if the number of
ordered pairs of the table's rows is a word. -/
theorem toNat_wordKey {i j : UInt64} (hij : i ≠ j) (hi : i.toNat < n) (hj : j.toNat < n)
    (hn : n * (n - 1) < UInt64.size) : (wordKey i j).toNat = key i.toNat j.toNat := by
  rcases UInt64.lt_or_lt_of_ne hij with hlt | hgt
  · exact toNat_wordKey_of_lt hlt hj hn
  · rw [wordKey_comm hij, key_comm]
    exact toNat_wordKey_of_lt hgt hi hn

/-- **Pairs and places correspond.**  For any number `n` of rows, the place of a pair does not
depend on the order of its rows, and the pairs of rows below `n` take the places below
`n * (n - 1) / 2` once each, which is the size of the table for `n` rows.  So a write to the cell of
one pair is read back there and leaves every other pair alone, and at no point of a fast search over
`n` rows is the cell of two of them out of range.  If `n * (n - 1)` is a machine word, then no
difference, product or sum that leads to a place leaves the words, the place that is computed in
words is that of the pair, and the search with guarded accesses never gives up. -/
theorem key_bijOn (n : ℕ) :
    (∀ i j, key i j = key j i) ∧
    Set.BijOn (fun pair : ℕ × ℕ => key pair.1 pair.2) {pair | pair.1 < pair.2 ∧ pair.2 < n}
      (Set.Iio (n * (n - 1) / 2)) ∧
    (start n).cells.size = n * (n - 1) / 2 ∧
    (∀ (table : PairTable) (cell : PartialDistance) (i j : ℕ),
      table.cells.size = n * (n - 1) / 2 → i ≠ j → i < n → j < n →
      (table.set i j cell).get i j = cell ∧
      ∀ i' j', i' ≠ j' → ¬ (i = i' ∧ j = j' ∨ i = j' ∧ j = i') →
        (table.set i j cell).get i' j' = table.get i' j') ∧
    (∀ (norm : Norm) (rows : Observations) (dims t k i j : ℕ), rows.length = n →
      t < n → k < n → i ≠ j → i < n → j < n →
      key i j < (Fast.during norm rows dims t k).table.cells.size) ∧
    (n * (n - 1) < UInt64.size →
      (∀ i j, i ≠ j → i < n → j < n → 1 ≤ max i j ∧ max i j * (max i j - 1) < UInt64.size ∧
        max i j * (max i j - 1) / 2 + min i j < UInt64.size) ∧
      (∀ i j : UInt64, i ≠ j → i.toNat < n → j.toNat < n →
        (wordKey i j).toNat = key i.toNat j.toNat) ∧
      ∀ (norm : Norm) (rows : Observations) (dims : ℕ), rows.Searchable dims → rows.length = n →
        Fast.sweep? norm rows dims = some (Fast.sweep norm rows dims)) := by
  refine ⟨key_comm, ⟨?_, ?_, ?_⟩, size_start n, ?_, ?_, fun hn => ⟨?_, ?_, ?_⟩⟩
  · rintro ⟨lo, hi⟩ ⟨hlt, hhi⟩
    exact key_lt_cellCount hlt hhi
  · rintro ⟨lo, hi⟩ ⟨hlt, -⟩ ⟨lo', hi'⟩ ⟨hlt', -⟩ heq
    obtain ⟨rfl, rfl⟩ := key_inj hlt hlt' heq
    rfl
  · intro k hk
    obtain ⟨lo, hi, hlt, hhi, hkey⟩ := exists_key_eq hk
    exact ⟨(lo, hi), ⟨hlt, hhi⟩, hkey⟩
  · intro table cell i j hsize hij hi hj
    refine ⟨get_set_self ?_, fun i' j' hij' hne => get_set_of_ne (key_ne_key hij hij' hne)⟩
    rw [hsize]
    exact key_lt_cellCount_of_ne hij hi hj
  · rintro norm rows dims t k i j rfl ht hk hij hi hj
    rw [Fast.size_during ht (Nat.le_sub_one_of_lt hk)]
    exact key_lt_cellCount_of_ne hij hi hj
  · intro i j hij hi hj
    exact ⟨by omega, mul_pred_lt_size hi hj hn, key_lt_size hij hi hj hn⟩
  · intro i j hij hi hj
    exact toNat_wordKey hij hi hj hn
  · rintro norm rows dims hrows rfl
    exact Fast.sweep?_eq_some norm hrows hn

/-- A table of three rows and a search over three rows, and the last place of the largest table of
which all places are computed in words. -/
theorem key_bijOn_largest :
    ((start 3).set 2 0 ⟨5, 1⟩).get 2 0 = ⟨5, 1⟩ ∧
    ((start 3).set 2 0 ⟨5, 1⟩).get 1 2 = .start ∧
    key 0 2 < (Fast.during .excess [[0, 4], [3, 1], [2, 2]] 2 1 1).table.cells.size ∧
    Observations.Searchable [[0, 4], [3, 1], [2, 2]] 2 ∧
    Fast.sweep? .excess [[0, 4], [3, 1], [2, 2]] 2 =
      some (Fast.sweep .excess [[0, 4], [3, 1], [2, 2]] 2) ∧
    4294967296 * (4294967296 - 1) < UInt64.size ∧
    (wordKey 4294967295 4294967294).toNat = key 4294967295 4294967294 := by
  obtain ⟨-, -, hsize, hcells, hrun, hwords⟩ := key_bijOn 3
  obtain ⟨-, -, -, -, -, hlargest⟩ := key_bijOn 4294967296
  obtain ⟨hself, hothers⟩ :=
    hcells (start 3) ⟨5, 1⟩ 2 0 hsize (by decide) (by decide) (by decide)
  have hrows : Observations.Searchable [[0, 4], [3, 1], [2, 2]] 2 :=
    ⟨by decide, by decide, by decide⟩
  have hfit : 4294967296 * (4294967296 - 1) < UInt64.size := by decide
  refine ⟨hself, ?_, ?_, hrows, ?_, hfit, ?_⟩
  · exact (hothers 1 2 (by decide) (by decide)).trans (get_start 3 1 2)
  · exact hrun .excess [[0, 4], [3, 1], [2, 2]] 2 1 1 0 2 rfl (by decide) (by decide) (by decide)
      (by decide) (by decide)
  · exact (hwords (by decide)).2.2 .excess [[0, 4], [3, 1], [2, 2]] 2 hrows rfl
  · exact (hlargest hfit).2.1 4294967295 4294967294 (by decide) (by decide) (by decide)

end PairTable

end Proximity
