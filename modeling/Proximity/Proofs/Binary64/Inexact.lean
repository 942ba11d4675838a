import Proximity.Proofs.Binary64.Arithmetic

/-!
# Quotients and square roots

The exact result of a division or of a square root need not have a finite mantissa.  The operations
compute its integer part in a small enough unit and how the rest compares with one half, which is
all that rounding asks for.

* `represents_div`, `represents_sqrt` : the integer part and the rest stand for the exact result.
* `isRounding_div`, `isRounding_sqrt` : **quotients and square roots are the exact ones, rounded**.
-/

namespace Proximity

namespace Binary64

open Float.Model Float.Model.UnpackedFloat

/-! ### Comparing the rest with one half -/

theorem represents_lt {m : ℕ} {x : ℝ} (hlo : m < x) (hhi : x < m + 1 / 2) :
    Represents (.ofMantissaAndAccuracy m (.inexact .lt)) x := by
  have hfloor : ⌊2 * x⌋ = 2 * m := by
    rw [Int.floor_eq_iff]
    push_cast
    constructor <;> linarith
  refine ⟨by rw [hfloor]; rfl, ?_⟩
  rw [hfloor]
  simp only [ExtendedMantissa.ofMantissaAndAccuracy, Bool.true_eq_false, false_iff]
  push_cast
  linarith

theorem represents_eq {m : ℕ} {x : ℝ} (h : x = m + 1 / 2) :
    Represents (.ofMantissaAndAccuracy m (.inexact .eq)) x := by
  have htwo : 2 * x = ((2 * m + 1 : ℤ) : ℝ) := by
    push_cast
    linarith
  constructor
  · rw [htwo, Int.floor_intCast]
    rfl
  · rw [htwo, Int.floor_intCast]
    simp only [ExtendedMantissa.ofMantissaAndAccuracy]

theorem represents_gt {m : ℕ} {x : ℝ} (hlo : m + 1 / 2 < x) (hhi : x < m + 1) :
    Represents (.ofMantissaAndAccuracy m (.inexact .gt)) x := by
  have hfloor : ⌊2 * x⌋ = 2 * m + 1 := by
    rw [Int.floor_eq_iff]
    push_cast
    constructor <;> linarith
  refine ⟨by rw [hfloor]; rfl, ?_⟩
  rw [hfloor]
  simp only [ExtendedMantissa.ofMantissaAndAccuracy, Bool.true_eq_false, false_iff]
  push_cast
  linarith

/-- The quotient and the rest of an integer division stand for the fraction. -/
theorem represents_div (m : ℕ) {n : ℕ} (hn : 0 < n) :
    Represents (.ofMantissaAndAccuracy (m / n) (accuracyOfFraction (m % n) n)) (m / n) := by
  have hpos : (0 : ℝ) < n := Nat.cast_pos.2 hn
  have hrest : ((m % n : ℕ) : ℝ) < n := Nat.cast_lt.2 (Nat.mod_lt m hn)
  have hdiv : (m / n : ℝ) = (m / n : ℕ) + (m % n : ℕ) / n := by
    rw [← mul_div_cancel_right₀ ((m / n : ℕ) : ℝ) hpos.ne', ← add_div]
    exact_mod_cast congrArg (fun k : ℕ => (k / n : ℝ)) (Nat.div_add_mod' m n).symm
  rw [hdiv]
  generalize m / n = q at *
  generalize m % n = r at *
  unfold accuracyOfFraction
  split_ifs with hzero
  · rw [hzero, Nat.cast_zero, zero_div, add_zero]
    exact represents_exact q
  · have hr : (0 : ℝ) < r / n := div_pos (Nat.cast_pos.2 (Nat.pos_of_ne_zero hzero)) hpos
    have hone : (r / n : ℝ) < 1 := (div_lt_one hpos).2 hrest
    rcases Nat.lt_trichotomy (2 * r) n with h | h | h
    · have hhalf : (r / n : ℝ) < 1 / 2 := by
        rw [div_lt_div_iff₀ hpos two_pos]
        exact_mod_cast (by omega : r * 2 < 1 * n)
      rw [Nat.compare_eq_lt.2 h]
      exact represents_lt (by linarith) (by linarith)
    · have hhalf : (r / n : ℝ) = 1 / 2 := by
        rw [div_eq_div_iff hpos.ne' two_ne_zero]
        exact_mod_cast (by omega : r * 2 = 1 * n)
      rw [Nat.compare_eq_eq.2 h]
      exact represents_eq (by linarith)
    · have hhalf : (1 / 2 : ℝ) < r / n := by
        rw [div_lt_div_iff₀ two_pos hpos]
        exact_mod_cast (by omega : 1 * n < r * 2)
      rw [Nat.compare_eq_gt.2 h]
      exact represents_gt (by linarith) (by linarith)

/-- The integer root and the rest stand for the square root, which is never halfway between two
integers. -/
theorem represents_sqrt (m : ℕ) :
    Represents (.ofMantissaAndAccuracy m.sqrt (if m - m.sqrt * m.sqrt = 0 then .exact
      else .inexact (if m - m.sqrt * m.sqrt ≤ m.sqrt then .lt else .gt))) √m := by
  have hlo := Nat.sqrt_le m
  have hhi := Nat.lt_succ_sqrt m
  rw [Nat.succ_eq_add_one] at hhi
  generalize m.sqrt = r at *
  have hnonneg : (0 : ℝ) ≤ r := Nat.cast_nonneg r
  have hhalf : (0 : ℝ) < r + 1 / 2 := by linarith
  have hup : √(m : ℝ) < r + 1 := by
    rw [Real.sqrt_lt' (by linarith), sq]
    exact_mod_cast hhi
  split_ifs with hzero hle
  · have hm : m = r * r := by omega
    rw [hm, Nat.cast_mul, Real.sqrt_mul_self hnonneg]
    exact represents_exact r
  · have hlt : (r : ℝ) < √m := by
      rw [Real.lt_sqrt hnonneg, sq]
      exact_mod_cast (by omega : r * r < m)
    refine represents_lt hlt ?_
    have hm : (m : ℝ) ≤ r * r + r := by exact_mod_cast (by omega : m ≤ r * r + r)
    rw [Real.sqrt_lt' hhalf]
    linarith [show (r + 1 / 2 : ℝ) ^ 2 = r * r + r + 1 / 4 by ring]
  · refine represents_gt ?_ hup
    have hm : (r * r + r + 1 : ℝ) ≤ m := by exact_mod_cast (by omega : r * r + r + 1 ≤ m)
    rw [Real.lt_sqrt hhalf.le]
    linarith [show (r + 1 / 2 : ℝ) ^ 2 = r * r + r + 1 / 4 by ring]

/-! ### Enough bits -/

theorem targetExponent_eq_max (e : ℤ) :
    Format.binary64.targetExponent e = max (e - 53) (-1074) := rfl

theorem two_zpow_log2_le {m : ℕ} (hm : 0 < m) (e : ℤ) : (2 : ℝ) ^ (m.log2 + e) ≤ m * 2 ^ e := by
  rw [zpow_add₀ two_ne_zero, zpow_natCast]
  refine mul_le_mul_of_nonneg_right ?_ (two_zpow_pos e).le
  exact_mod_cast Nat.log2_self_le hm.ne'

theorem lt_two_zpow_log2 (m : ℕ) (e : ℤ) : (m * 2 ^ e : ℝ) < 2 ^ (m.log2 + 1 + e) := by
  rw [zpow_add₀ two_ne_zero]
  refine mul_lt_mul_of_pos_right ?_ (two_zpow_pos e)
  exact_mod_cast Nat.lt_log2_self (n := m)

theorem le_log {x : ℝ} {k : ℤ} (h : 2 ^ k ≤ x) : k ≤ Int.log 2 x :=
  (Int.zpow_le_iff_le_log one_lt_two ((two_zpow_pos k).trans_le h)).1 (by exact_mod_cast h)

/-- **The quotient of two magnitudes is the exact one, rounded.** -/
theorem isRounding_div (s₁ s₂ : Sign) {m₁ m₂ : ℕ} {e₁ e₂ : ℤ} (h₁ : 0 < m₁) (h₂ : 0 < m₂) :
    IsRounding (s₁ / s₂) (m₁ * 2 ^ e₁ / (m₂ * 2 ^ e₂))
      (UnpackedFloat.div .binary64 (.finite s₁ m₁ e₁ h₁) (.finite s₂ m₂ e₂ h₂)) := by
  obtain ⟨t, ht⟩ : ∃ t, min (e₁ - e₂)
      (Format.binary64.targetExponent (totalExponent m₁ e₁ - totalExponent m₂ e₂)) = t := ⟨_, rfl⟩
  have hdiv : UnpackedFloat.div .binary64 (.finite s₁ m₁ e₁ h₁) (.finite s₂ m₂ e₂ h₂) =
      roundWithAccuracy .binary64 (s₁ / s₂) (m₁ <<< (e₁ - e₂ - t).toNat / m₂) t
        (accuracyOfFraction (m₁ <<< (e₁ - e₂ - t).toNat % m₂) m₂) := by
    rw [← ht]
    rfl
  have hpos : (0 : ℝ) < m₂ := Nat.cast_pos.2 h₂
  -- in units of `2 ^ t` the quotient is a fraction of integers
  have hvalue : ((m₁ <<< (e₁ - e₂ - t).toNat : ℕ) / m₂ * 2 ^ t : ℝ) =
      m₁ * 2 ^ e₁ / (m₂ * 2 ^ e₂) := by
    rw [div_mul_eq_mul_div, shiftLeft_mul_two_zpow m₁ (by omega), ← two_zpow_sub]
    field_simp
  have hbits : t ≤ lastPlace (m₁ * 2 ^ e₁ / (m₂ * 2 ^ e₂)) := by
    have hlog : (m₁.log2 + e₁) - (m₂.log2 + 1 + e₂) ≤
        Int.log 2 (m₁ * 2 ^ e₁ / (m₂ * 2 ^ e₂) : ℝ) := by
      refine le_log ?_
      rw [← two_zpow_sub]
      exact div_le_div₀ (mul_pos (Nat.cast_pos.2 h₁) (two_zpow_pos e₁)).le
        (two_zpow_log2_le h₁ e₁) (mul_pos hpos (two_zpow_pos e₂)) (lt_two_zpow_log2 m₂ e₂).le
    rw [targetExponent_eq_max] at ht
    simp only [totalExponent] at ht
    rw [lastPlace]
    omega
  rw [hdiv]
  have hround := isRounding_roundWithAccuracy (s₁ / s₂) (e := t)
    (div_pos (Nat.cast_pos.2 (Nat.shiftLeft_pos_iff.2 h₁)) hpos)
    (represents_div (m₁ <<< (e₁ - e₂ - t).toNat) h₂) (by rwa [hvalue])
  rwa [hvalue] at hround

/-- **The square root of a positive number is the exact one, rounded.** -/
theorem isRounding_sqrt {m : ℕ} {e : ℤ} (h : 0 < m) :
    IsRounding .positive √(m * 2 ^ e)
      (UnpackedFloat.sqrt .binary64 (.finite .positive m e h)) := by
  obtain ⟨t, ht⟩ : ∃ t, min (e / 2)
      (Format.binary64.targetExponent ((totalExponent m e + 1) / 2)) = t := ⟨_, rfl⟩
  obtain ⟨M, hM⟩ : ∃ M, m <<< (e - 2 * t).toNat = M := ⟨_, rfl⟩
  have hsqrt : UnpackedFloat.sqrt .binary64 (.finite .positive m e h) =
      roundWithAccuracy .binary64 .positive M.sqrt t
        (if M - M.sqrt * M.sqrt = 0 then .exact
          else .inexact (if M - M.sqrt * M.sqrt ≤ M.sqrt then .lt else .gt)) := by
    rw [← hM, ← ht]
    rfl
  -- in units of `2 ^ t` the root is that of an integer
  have hvalue : (√M * 2 ^ t : ℝ) = √(m * 2 ^ e) := by
    have hshift := shiftLeft_mul_two_zpow m (show 2 * t ≤ e by omega)
    rw [hM, two_mul, zpow_add₀ two_ne_zero] at hshift
    rw [← hshift, Real.sqrt_mul (Nat.cast_nonneg M), Real.sqrt_mul_self (two_zpow_pos t).le]
  have hbits : t ≤ lastPlace √(m * 2 ^ e) := by
    have hlog : (m.log2 + e) / 2 ≤ Int.log 2 √(m * 2 ^ e : ℝ) := by
      refine le_log (Real.le_sqrt_of_sq_le ?_)
      rw [← zpow_natCast, ← zpow_mul]
      refine le_trans ?_ (two_zpow_log2_le h e)
      exact zpow_le_zpow_right₀ one_le_two (by push_cast; omega)
    rw [targetExponent_eq_max] at ht
    simp only [totalExponent] at ht
    rw [lastPlace]
    omega
  have hpos : (0 : ℝ) < √M := Real.sqrt_pos.2 (Nat.cast_pos.2 (hM ▸ Nat.shiftLeft_pos_iff.2 h))
  rw [hsqrt]
  have hround := isRounding_roundWithAccuracy .positive hpos (represents_sqrt M)
    (by rwa [hvalue])
  rwa [hvalue] at hround

end Binary64

end Proximity
