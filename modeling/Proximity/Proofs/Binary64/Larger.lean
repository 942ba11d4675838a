import Proximity.Proofs.Binary64.Value
import Proximity.Scalar

/-!
# The larger of two numbers

`Scalar.larger` takes the larger of two numbers, and it gives up a NaN for the other one.  On
numbers that are not NaNs it is the maximum of a linear order, and folding it over several numbers
leads to the largest one.

* `Scalar.larger_comm`, `Scalar.larger_assoc` : the operation on two and on three numbers.
* `IsLargest` : a number of a list that no other one exceeds.
* `Scalar.isLargest_foldl_larger` : **a fold leads to the largest number**.
-/

namespace Proximity

/-- A number of a list that no number of the list exceeds. -/
structure IsLargest (top : Float) (l : List Float) : Prop where
  /-- It is one of the list. -/
  mem : top ∈ l
  /-- No other one is larger, and none is a NaN. -/
  le : ∀ b ∈ l, b ≤ top

namespace Scalar

variable {a b c : Float}

/-! ### Two numbers -/

theorem larger_of_lt (h : a < b) : larger a b = b := by
  rw [larger, decide_eq_true h, Bool.true_or, if_pos rfl]

theorem larger_of_not_lt (ha : a.isNaN = false) (h : ¬ a < b) : larger a b = a := by
  rw [larger, ha, Bool.or_false, if_neg (by rwa [decide_eq_true_eq])]

/-- A NaN gives way to the second number. -/
theorem larger_of_isNaN_left (ha : a.isNaN = true) : larger a b = b := by
  rw [larger, ha, Bool.or_true, if_pos rfl]

/-- A NaN gives way to the first number, also if that is a NaN. -/
theorem larger_of_isNaN_right (hb : b.isNaN = true) : larger a b = a := by
  cases ha : a.isNaN with
  | true => rw [larger_of_isNaN_left ha, eq_of_isNaN ha hb]
  | false =>
    refine larger_of_not_lt ha fun hlt => ?_
    rw [(lt_iff.1 hlt).2.1] at hb
    cases hb

theorem isNaN_larger_iff : (larger a b).isNaN = true ↔ a.isNaN = true ∧ b.isNaN = true := by
  cases ha : a.isNaN with
  | true => rw [larger_of_isNaN_left ha, eq_self, true_and]
  | false =>
    by_cases hlt : a < b
    · rw [larger_of_lt hlt, (lt_iff.1 hlt).2.1]
      simp
    · rw [larger_of_not_lt ha hlt, ha]
      simp

theorem isNaN_larger_of_left (ha : a.isNaN = false) : (larger a b).isNaN = false := by
  rw [← Bool.not_eq_true, isNaN_larger_iff, ha]
  exact fun h => Bool.false_ne_true h.1

/-- The order of the two numbers does not matter, unless one of them is the negative zero. -/
theorem larger_comm (ha : a ≠ -0) (hb : b ≠ -0) : larger a b = larger b a := by
  cases hna : a.isNaN with
  | true => rw [larger_of_isNaN_left hna, larger_of_isNaN_right hna]
  | false =>
    cases hnb : b.isNaN with
    | true => rw [larger_of_isNaN_left hnb, larger_of_isNaN_right hnb]
    | false =>
      by_cases hlt : a < b
      · have hge : ¬ b < a := fun hgt => lt_irrefl a (lt_trans hlt hgt)
        rw [larger_of_lt hlt, larger_of_not_lt hnb hge]
      · by_cases hgt : b < a
        · rw [larger_of_not_lt hna hlt, larger_of_lt hgt]
        · rw [eq_of_not_lt hna hnb ha hb hlt hgt]

theorem larger_assoc (ha : a.isNaN = false) (hb : b.isNaN = false) (hc : c.isNaN = false) :
    larger (larger a b) c = larger a (larger b c) := by
  by_cases hab : a < b <;> by_cases hbc : b < c
  · rw [larger_of_lt hab, larger_of_lt hbc, larger_of_lt (lt_trans hab hbc)]
  · rw [larger_of_lt hab, larger_of_not_lt hb hbc, larger_of_lt hab]
  · rw [larger_of_not_lt ha hab, larger_of_lt hbc]
  · have hca : c ≤ a := le_trans (le_of_not_lt hc hb hbc) (le_of_not_lt hb ha hab)
    have hac : ¬ a < c := fun hlt => lt_irrefl a (lt_of_lt_of_le hlt hca)
    rw [larger_of_not_lt hb hbc, larger_of_not_lt ha hab, larger_of_not_lt ha hac]

theorem le_larger_left (ha : a.isNaN = false) : a ≤ larger a b := by
  by_cases hlt : a < b
  · rw [larger_of_lt hlt]
    exact le_of_lt hlt
  · rw [larger_of_not_lt ha hlt]
    exact le_refl ha

theorem le_larger_right (ha : a.isNaN = false) (hb : b.isNaN = false) : b ≤ larger a b := by
  by_cases hlt : a < b
  · rw [larger_of_lt hlt]
    exact le_refl hb
  · rw [larger_of_not_lt ha hlt]
    exact le_of_not_lt hb ha hlt

theorem larger_eq_or (ha : a.isNaN = false) (b : Float) : larger a b = a ∨ larger a b = b := by
  by_cases hlt : a < b
  · exact .inr (larger_of_lt hlt)
  · exact .inl (larger_of_not_lt ha hlt)

/-! ### Several numbers -/

/-- **A fold leads to the largest number.** -/
theorem isLargest_foldl_larger {l : List Float} (ha : a.isNaN = false)
    (hl : ∀ b ∈ l, b.isNaN = false) : IsLargest (l.foldl larger a) (a :: l) := by
  induction l generalizing a with
  | nil => exact ⟨List.mem_singleton_self a, List.forall_mem_singleton.2 (le_refl ha)⟩
  | cons b l ih =>
    obtain ⟨hb, hl⟩ := List.forall_mem_cons.1 hl
    -- the fold goes on from the larger one of the first two
    obtain ⟨hmem, hle⟩ := ih (isNaN_larger_of_left ha) hl
    obtain ⟨htop, hle⟩ := List.forall_mem_cons.1 hle
    refine ⟨?_, List.forall_mem_cons.2 ⟨le_trans (le_larger_left ha) htop,
      List.forall_mem_cons.2 ⟨le_trans (le_larger_right ha hb) htop, hle⟩⟩⟩
    rw [List.foldl_cons]
    rcases List.mem_cons.1 hmem with heq | hrest
    · rw [heq]
      rcases larger_eq_or ha b with heq | heq <;> rw [heq]
      · exact List.mem_cons_self
      · exact List.mem_cons_of_mem a List.mem_cons_self
    · exact List.mem_cons_of_mem a (List.mem_cons_of_mem b hrest)

end Scalar

end Proximity
