import Mathlib

/-!
# Rounding to 53 bits

Arithmetic on binary64 numbers is exact arithmetic followed by rounding.  This file studies the
rounding of a non-negative real number: the number is measured in units of its *last place*, which
leaves 53 bits but is never finer than `2 ^ (-1074)`, and the measure is rounded to the nearest
integer, to the even one if two are equally near.  The largest exponent only plays a role in `fit`.

## Main definitions

* `nearest` : the nearest integer.
* `lastPlace` : the exponent of the last place of a number.
* `rounded` : the rounded number.
* `fit` : the rounded number, or infinity if it is too large.

The main results are that rounding is monotone (`rounded_le_rounded`), that it changes nothing
that already fits (`rounded_of_fits`), and how much it can take away (`sub_le_rounded`).
-/

namespace Proximity

namespace Binary64

/-- The integer nearest to `x`, and the even one if two are equally near. -/
noncomputable def nearest (x : ℝ) : ℤ :=
  if Int.fract x < 1 / 2 ∨ Int.fract x = 1 / 2 ∧ Even ⌊x⌋ then ⌊x⌋ else ⌊x⌋ + 1

/-- The exponent of the last place of `x`. -/
noncomputable def lastPlace (x : ℝ) : ℤ := max (Int.log 2 x - 52) (-1074)

/-- The number `x` rounded to its last place. -/
noncomputable def rounded (x : ℝ) : ℝ := nearest (x / 2 ^ lastPlace x) * 2 ^ lastPlace x

/-- The value that is stored for an exact result: infinity if the rounded result is too large. -/
noncomputable def fit (x : EReal) : EReal :=
  if x ≠ ⊤ ∧ rounded x.toReal < 2 ^ (1024 : ℤ) then (rounded x.toReal : EReal) else ⊤

/-- The number with the given mantissa and exponent. -/
noncomputable def magnitude (m : ℕ) (e : ℤ) : ℝ := m * 2 ^ e

/-! ### The nearest integer -/

theorem floor_le_nearest (x : ℝ) : ⌊x⌋ ≤ nearest x := by
  unfold nearest
  split_ifs <;> omega

theorem nearest_le_floor_add_one (x : ℝ) : nearest x ≤ ⌊x⌋ + 1 := by
  unfold nearest
  split_ifs <;> omega

@[simp] theorem nearest_intCast (n : ℤ) : nearest n = n := by
  simp [nearest]

theorem nearest_le_nearest {x y : ℝ} (h : x ≤ y) : nearest x ≤ nearest y := by
  rcases (Int.floor_le_floor h).lt_or_eq with hlt | heq
  · calc nearest x ≤ ⌊x⌋ + 1 := nearest_le_floor_add_one x
      _ ≤ ⌊y⌋ := hlt
      _ ≤ nearest y := floor_le_nearest y
  · -- in the same unit interval only the fractional parts matter
    have hfract : Int.fract x ≤ Int.fract y := by
      rw [Int.fract, Int.fract, heq]
      linarith
    unfold nearest
    rw [heq]
    split_ifs with hx hy hy
    · exact le_rfl
    · omega
    · refine absurd ?_ hx
      rcases hy with hy | ⟨hy, heven⟩
      · exact Or.inl (hfract.trans_lt hy)
      · rcases (hfract.trans_eq hy).lt_or_eq with h' | h'
        · exact Or.inl h'
        · exact Or.inr ⟨h', heven⟩
    · exact le_rfl

theorem nearest_le_of_le_intCast {x : ℝ} {n : ℤ} (h : x ≤ n) : nearest x ≤ n := by
  simpa using nearest_le_nearest h

theorem le_nearest_of_intCast_le {x : ℝ} {n : ℤ} (h : n ≤ x) : n ≤ nearest x := by
  simpa using nearest_le_nearest h

/-- The nearest integer is at most one half below. -/
theorem sub_half_le_nearest (x : ℝ) : x - 1 / 2 ≤ nearest x := by
  have hlt := Int.lt_floor_add_one x
  unfold nearest
  split_ifs with h
  · have hfract : Int.fract x ≤ 1 / 2 := by
      rcases h with h | ⟨h, -⟩
      · exact h.le
      · exact h.le
    rw [Int.fract] at hfract
    linarith
  · push_cast
    linarith

theorem le_nearest_of_sub_half_lt {x : ℝ} {n : ℤ} (h : n - 1 / 2 < x) : n ≤ nearest x := by
  have hlt : ((n - 1 : ℤ) : ℝ) < nearest x := by
    push_cast
    linarith [sub_half_le_nearest x]
  exact Int.sub_one_lt_iff.1 (by exact_mod_cast hlt)

/-! ### The last place -/

theorem two_zpow_pos (k : ℤ) : (0 : ℝ) < 2 ^ k := zpow_pos two_pos k

theorem two_zpow_sub (k l : ℤ) : (2 : ℝ) ^ k / 2 ^ l = 2 ^ (k - l) :=
  (zpow_sub₀ two_ne_zero k l).symm

/-- A power of two with a non-negative exponent is an integer. -/
theorem two_zpow_eq_intCast {k : ℤ} (hk : 0 ≤ k) : (2 : ℝ) ^ k = ((2 ^ k.toNat : ℤ) : ℝ) := by
  push_cast
  rw [← zpow_natCast, Int.toNat_of_nonneg hk]

theorem lastPlace_le_lastPlace {x y : ℝ} (hx : 0 < x) (h : x ≤ y) : lastPlace x ≤ lastPlace y := by
  have := Int.log_mono_right (b := 2) hx h
  simp only [lastPlace]
  omega

theorem lastPlace_le {x : ℝ} {k : ℤ} (hx : 0 < x) (hk : -1074 ≤ k) (h : x < 2 ^ (k + 53)) :
    lastPlace x ≤ k := by
  have := (Int.lt_zpow_iff_log_lt one_lt_two hx).1 (by exact_mod_cast h : x < (2 : ℕ) ^ (k + 53))
  simp only [lastPlace]
  omega

/-- A number in `[2 ^ k, 2 ^ (k + 1))` has logarithm `k`. -/
theorem log_eq_of_bounds {x : ℝ} {k : ℤ} (hle : 2 ^ k ≤ x) (hlt : x < 2 ^ (k + 1)) :
    Int.log 2 x = k := by
  have hx : 0 < x := (two_zpow_pos k).trans_le hle
  have h1 := (Int.zpow_le_iff_le_log one_lt_two hx).1 (by exact_mod_cast hle : (2 : ℕ) ^ k ≤ x)
  have h2 := (Int.lt_zpow_iff_log_lt one_lt_two hx).1
    (by exact_mod_cast hlt : x < (2 : ℕ) ^ (k + 1))
  omega

/-! ### Rounding -/

@[simp] theorem rounded_zero : rounded 0 = 0 := by
  have : nearest 0 = 0 := by simpa using nearest_intCast 0
  simp [rounded, this]

/-- A power of two that is not below `x` is not below the rounded number either. -/
theorem rounded_le_of_le_two_zpow {x : ℝ} {k : ℤ} (h : x ≤ 2 ^ k) (hk : lastPlace x ≤ k) :
    rounded x ≤ 2 ^ k := by
  -- in units of the last place the power of two is an integer
  have hunit := two_zpow_pos (lastPlace x)
  have hx : x / 2 ^ lastPlace x ≤ ((2 ^ (k - lastPlace x).toNat : ℤ) : ℝ) := by
    rw [← two_zpow_eq_intCast (by omega), ← two_zpow_sub]
    exact (div_le_div_iff_of_pos_right hunit).2 h
  rw [rounded, ← le_div_iff₀ hunit, two_zpow_sub,
    two_zpow_eq_intCast (k := k - lastPlace x) (by omega)]
  exact_mod_cast nearest_le_of_le_intCast hx

/-- A power of two that is not above `x` is not above the rounded number either. -/
theorem two_zpow_le_rounded {x : ℝ} {k : ℤ} (h : 2 ^ k ≤ x) (hk : lastPlace x ≤ k) :
    2 ^ k ≤ rounded x := by
  have hunit := two_zpow_pos (lastPlace x)
  have hx : ((2 ^ (k - lastPlace x).toNat : ℤ) : ℝ) ≤ x / 2 ^ lastPlace x := by
    rw [← two_zpow_eq_intCast (by omega), ← two_zpow_sub]
    exact (div_le_div_iff_of_pos_right hunit).2 h
  rw [rounded, ← div_le_iff₀ hunit, two_zpow_sub,
    two_zpow_eq_intCast (k := k - lastPlace x) (by omega)]
  exact_mod_cast le_nearest_of_intCast_le hx

theorem rounded_nonneg {x : ℝ} (hx : 0 ≤ x) : 0 ≤ rounded x := by
  have : (0 : ℤ) ≤ nearest (x / 2 ^ lastPlace x) :=
    le_nearest_of_intCast_le (by simpa using div_nonneg hx (two_zpow_pos _).le)
  exact mul_nonneg (by exact_mod_cast this) (two_zpow_pos _).le

/-- A number that leaves 53 bits in units of `2 ^ k` loses at most half of the unit. -/
theorem sub_le_rounded {x : ℝ} {k : ℤ} (hx : 0 < x) (hk : -1074 ≤ k) (h : x < 2 ^ (k + 53)) :
    x - 2 ^ (k - 1) ≤ rounded x := by
  have hunit := two_zpow_pos (lastPlace x)
  have hle : (2 : ℝ) ^ lastPlace x ≤ 2 ^ k :=
    zpow_le_zpow_right₀ one_le_two (lastPlace_le hx hk h)
  have hnear := mul_le_mul_of_nonneg_right (sub_half_le_nearest (x / 2 ^ lastPlace x)) hunit.le
  rw [sub_mul, div_mul_cancel₀ _ hunit.ne'] at hnear
  rw [zpow_sub_one₀ two_ne_zero, rounded]
  linarith

/-- **Rounding is monotone.** -/
theorem rounded_le_rounded {x y : ℝ} (hx : 0 ≤ x) (h : x ≤ y) : rounded x ≤ rounded y := by
  rcases hx.eq_or_lt with rfl | hpos
  · simpa using rounded_nonneg h
  rcases (lastPlace_le_lastPlace hpos h).lt_or_eq with hlt | heq
  · -- a power of two separates the two numbers, and rounding does not cross it
    have hlog : lastPlace y = Int.log 2 y - 52 := by simp only [lastPlace] at hlt ⊢; omega
    have hxk : x < 2 ^ Int.log 2 y := by
      have : Int.log 2 x < Int.log 2 y := by simp only [lastPlace] at hlt; omega
      exact_mod_cast (Int.lt_zpow_iff_log_lt one_lt_two hpos).2 this
    have hky : 2 ^ Int.log 2 y ≤ y := by
      exact_mod_cast Int.zpow_log_le_self one_lt_two (hpos.trans_le h)
    calc rounded x ≤ 2 ^ Int.log 2 y := rounded_le_of_le_two_zpow hxk.le (by omega)
      _ ≤ rounded y := two_zpow_le_rounded hky (by omega)
  · have hunit := two_zpow_pos (lastPlace y)
    rw [rounded, rounded, heq]
    refine mul_le_mul_of_nonneg_right ?_ hunit.le
    exact_mod_cast nearest_le_nearest ((div_le_div_iff_of_pos_right hunit).2 h)

/-- **Rounding changes nothing that fits** into 53 bits. -/
theorem rounded_of_fits {m : ℕ} {e : ℤ} (hm : m < 2 ^ 53) (he : -1074 ≤ e) :
    rounded (m * 2 ^ e) = m * 2 ^ e := by
  rcases Nat.eq_zero_or_pos m with rfl | hpos
  · simp
  have hx : (0 : ℝ) < m * 2 ^ e := mul_pos (by exact_mod_cast hpos) (two_zpow_pos e)
  have hlast : lastPlace (m * 2 ^ e : ℝ) ≤ e := by
    refine lastPlace_le hx he ?_
    rw [zpow_add₀ two_ne_zero, mul_comm (2 ^ e : ℝ)]
    exact mul_lt_mul_of_pos_right (by exact_mod_cast hm) (two_zpow_pos e)
  -- the measure is an integer already
  have hmeasure : (m * 2 ^ e / 2 ^ lastPlace (m * 2 ^ e : ℝ) : ℝ) =
      ((m * 2 ^ (e - lastPlace (m * 2 ^ e : ℝ)).toNat : ℤ) : ℝ) := by
    rw [mul_div_assoc, two_zpow_sub, two_zpow_eq_intCast (by omega)]
    push_cast
    rfl
  rw [rounded, hmeasure, nearest_intCast, ← hmeasure, div_mul_cancel₀ _ (two_zpow_pos _).ne']

/-! ### Stored values -/

@[simp] theorem fit_top : fit ⊤ = ⊤ := by
  simp [fit]

theorem fit_coe (x : ℝ) :
    fit x = if rounded x < 2 ^ (1024 : ℤ) then (rounded x : EReal) else ⊤ := by
  simp [fit]

/-- A number that is not above a rounded one is not above the stored one either. -/
theorem le_fit {x y : ℝ} (h : x ≤ rounded y) : (x : EReal) ≤ fit y := by
  rw [fit_coe]
  split_ifs
  · exact EReal.coe_le_coe_iff.2 h
  · exact le_top

theorem fit_zero : fit 0 = 0 := by
  have := fit_coe 0
  rwa [rounded_zero, if_pos (two_zpow_pos _), EReal.coe_zero] at this

/-- **Storing is monotone.** -/
theorem fit_le_fit {x y : EReal} (hx : 0 ≤ x) (h : x ≤ y) : fit x ≤ fit y := by
  induction y with
  | bot => exact absurd (hx.trans h) (by simp)
  | top => rw [fit_top]; exact le_top
  | coe y =>
    induction x with
    | bot => simp at hx
    | top => simp at h
    | coe x =>
      have hle := rounded_le_rounded (EReal.coe_nonneg.1 hx) (EReal.coe_le_coe_iff.1 h)
      rw [fit_coe, fit_coe]
      -- what is too large for one of them is too large for the other
      split_ifs with h1 h2 h2
      · exact EReal.coe_le_coe_iff.2 hle
      · exact le_top
      · exact absurd (hle.trans_lt h2) h1
      · exact le_rfl

end Binary64

end Proximity
