import Proximity.Proofs.Binary64.Value

/-!
# The result of an operation

An arithmetic operation computes a mantissa, an exponent and two residual bits, which together
stand for its exact result, and then drops low bits and rounds.  This file shows that what comes
out is the exact result rounded to its last place (`isRounding_roundWithAccuracy`,
`isRounding_round`), and that storing it gives the largest exponents up (`unpackedValue_stored`).

## Main definitions

* `Represents` : a mantissa with residual bits stands for a real number.
* `IsRounding` : an unpacked number is a rounded real number.
* `fit` : the value that is stored for an exact result.
-/

namespace Proximity

namespace Binary64

open Float.Model Float.Model.UnpackedFloat

/-! ### Residual bits -/

/-- The mantissa and the round bit are the integer part of `2 * x`, and the sticky bit tells whether
there is a rest. -/
structure Represents (em : ExtendedMantissa) (x : ℝ) : Prop where
  floor_two_mul : ⌊2 * x⌋ = 2 * em.mantissa + em.roundBit.toNat
  sticky_iff : em.stickyBit = false ↔ (⌊2 * x⌋ : ℝ) = 2 * x

theorem represents_exact (m : ℕ) : Represents (.ofMantissaAndAccuracy m .exact) m := by
  have h : (2 * m : ℝ) = ((2 * m : ℤ) : ℝ) := by push_cast; rfl
  constructor
  · rw [h, Int.floor_intCast]
    rfl
  · rw [h, Int.floor_intCast]
    simp [ExtendedMantissa.ofMantissaAndAccuracy]

theorem Represents.floor_eq {em : ExtendedMantissa} {x : ℝ} (h : Represents em x) :
    ⌊x⌋ = em.mantissa := by
  obtain ⟨hlo, hhi⟩ := Int.floor_eq_iff.1 h.1
  rw [Int.floor_eq_iff]
  cases hr : em.roundBit <;> simp only [hr] at hlo hhi <;> push_cast at hlo hhi ⊢ <;>
    constructor <;> norm_num at hlo hhi <;> linarith

theorem Represents.eq_mantissa_iff {em : ExtendedMantissa} {x : ℝ} (h : Represents em x) :
    x = em.mantissa ↔ em.roundBit = false ∧ em.stickyBit = false := by
  obtain ⟨hfloor, hsticky⟩ := h
  constructor
  · intro hx
    have h2x : 2 * x = ((2 * em.mantissa : ℤ) : ℝ) := by rw [hx]; push_cast; rfl
    rw [h2x, Int.floor_intCast] at hfloor hsticky
    refine ⟨?_, hsticky.2 rfl⟩
    cases hr : em.roundBit
    · rfl
    · rw [hr, Bool.toNat_true] at hfloor
      omega
  · rintro ⟨hr, hs⟩
    have h2x := hsticky.1 hs
    rw [hfloor, hr, Bool.toNat_false] at h2x
    push_cast at h2x
    linarith

/-- Dropping the last bit halves the number. -/
theorem Represents.shiftRightOne {em : ExtendedMantissa} {x : ℝ} (h : Represents em x) :
    Represents em.shiftRightOne (x / 2) := by
  have hmantissa := h.eq_mantissa_iff
  have hfloor := h.floor_eq
  have htwo : 2 * (x / 2) = x := mul_div_cancel₀ x two_ne_zero
  constructor
  · rw [htwo, hfloor]
    simp only [ExtendedMantissa.shiftRightOne]
    rcases Nat.mod_two_eq_zero_or_one em.mantissa with hm | hm <;> simp [hm] <;> omega
  · rw [htwo, hfloor]
    simp only [ExtendedMantissa.shiftRightOne, Bool.or_eq_false_iff, ← hmantissa]
    exact eq_comm

theorem Represents.shiftRight {em : ExtendedMantissa} {x : ℝ} (h : Represents em x) (k : ℕ) :
    Represents (em >>> k) (x / 2 ^ k) := by
  induction k with
  | zero => rwa [pow_zero, div_one]
  | succ k ih =>
    have := ih.shiftRightOne
    rwa [div_div, ← pow_succ] at this

/-- Rounding by the residual bits is rounding the number. -/
theorem Represents.roundedMantissa_eq {em : ExtendedMantissa} {x : ℝ} (h : Represents em x) :
    (em.roundedMantissa : ℤ) = nearest x := by
  have hfloor := h.floor_eq
  obtain ⟨m, r, s⟩ := em
  obtain ⟨h1, h2⟩ := h
  have hle := Int.floor_le (2 * x)
  have hlt := Int.lt_floor_add_one (2 * x)
  have hrest : s = true → (⌊2 * x⌋ : ℝ) < 2 * x := fun hs =>
    hle.lt_of_ne fun heq => by cases hs.symm.trans (h2.2 heq)
  simp only [nearest, Int.fract, hfloor]
  simp only at h1 h2
  rw [h1] at h2 hlt hrest
  -- nothing is left, less than a half, a half, or more than a half
  cases r <;> cases s <;> simp only [Bool.toNat_false, Bool.toNat_true] at h2 hlt hrest <;>
    push_cast at h2 hlt hrest ⊢
  · rw [if_pos (Or.inl (by linarith [h2.1 trivial]))]
    rfl
  · rw [if_pos (Or.inl (by linarith))]
    rfl
  · have hx : x - m = 1 / 2 := by linarith [h2.1 trivial]
    change ((m + m % 2 : ℕ) : ℤ) = _
    by_cases heven : Even (m : ℤ)
    · rw [if_pos (Or.inr ⟨hx, heven⟩)]
      have := Int.even_iff.1 heven
      omega
    · rw [if_neg (by rw [hx]; simp [heven])]
      have := Int.not_even_iff.1 heven
      omega
  · have hx : 1 / 2 < x - m := by linarith [hrest trivial]
    rw [if_neg (by rintro (h | ⟨h, -⟩) <;> linarith)]
    rfl

/-! ### Rounding a mantissa -/

/-- The unpacked number `u` with the sign `s` is `x` rounded. -/
structure IsRounding (s : Sign) (x : ℝ) (u : UnpackedFloat) : Prop where
  normal : Normal u
  eq_rounded : u = .zero s ∧ rounded x = 0 ∨
    ∃ m e h, u = .finite s m e h ∧ (m * 2 ^ e : ℝ) = rounded x

theorem targetExponent_eq (m : ℕ) (e : ℤ) :
    Format.binary64.targetExponent (totalExponent m e) = max (m.log2 + e - 52) (-1074) := by
  have h1 : Format.binary64.minExponent = -1074 := rfl
  have h2 : Format.binary64.mantissaBits = 53 := rfl
  simp only [Format.targetExponent, totalExponent, h1, h2]
  omega

/-- The last place depends on the integer part of a measure only. -/
theorem lastPlace_mul_two_zpow {m : ℕ} {y : ℝ} (hm : 0 < m) (hy : ⌊y⌋ = m) (e : ℤ) :
    lastPlace (y * 2 ^ e) = max (m.log2 + e - 52) (-1074) := by
  obtain ⟨hlo, hhi⟩ := Int.floor_eq_iff.1 hy
  have hlog : Int.log 2 (y * 2 ^ e) = m.log2 + e := by
    apply log_eq_of_bounds
    · rw [zpow_add₀ two_ne_zero, zpow_natCast]
      refine mul_le_mul_of_nonneg_right (le_trans ?_ hlo) (two_zpow_pos e).le
      exact_mod_cast Nat.log2_self_le hm.ne'
    · rw [add_right_comm, zpow_add₀ two_ne_zero (_ + 1)]
      refine mul_lt_mul_of_pos_right (hhi.trans_le ?_) (two_zpow_pos e)
      exact_mod_cast Nat.lt_log2_self (n := m)
  rw [lastPlace, hlog]

/-- The same for a measure with an integer part that may be zero, if its unit is not coarser than
the last place. -/
theorem lastPlace_eq_of_floor {m : ℕ} {y : ℝ} {e : ℤ} (hpos : 0 < y) (hy : ⌊y⌋ = m)
    (he : e ≤ lastPlace (y * 2 ^ e)) : lastPlace (y * 2 ^ e) = max (m.log2 + e - 52) (-1074) := by
  rcases Nat.eq_zero_or_pos m with rfl | hm
  · -- such a number is below its unit, so its last place is the finest one
    obtain ⟨-, hlt⟩ := Int.floor_eq_iff.1 hy
    have hlog : Int.log 2 (y * 2 ^ e) < e := by
      refine (Int.lt_zpow_iff_log_lt one_lt_two (mul_pos hpos (two_zpow_pos e))).1 ?_
      push_cast at hlt ⊢
      calc y * 2 ^ e < 1 * 2 ^ e := mul_lt_mul_of_pos_right (by simpa using hlt) (two_zpow_pos e)
        _ = 2 ^ e := one_mul _
    rw [Nat.log2_zero]
    simp only [lastPlace] at he ⊢
    omega
  · exact lastPlace_mul_two_zpow hm hy e

/-- A rounded mantissa has 53 bits, or is `2 ^ 53`. -/
theorem nearest_le_two_pow (x : ℝ) : nearest (x / 2 ^ lastPlace x) ≤ 2 ^ 53 := by
  have hunit := two_zpow_pos (lastPlace x)
  have hlt : x < 2 ^ (Int.log 2 x + 1) := by exact_mod_cast Int.lt_zpow_succ_log_self one_lt_two x
  have hle : (2 : ℝ) ^ (Int.log 2 x + 1) ≤ 2 ^ (53 + lastPlace x) :=
    zpow_le_zpow_right₀ one_le_two (by simp only [lastPlace]; omega)
  refine nearest_le_of_le_intCast ((div_le_iff₀ hunit).2 ?_)
  rw [zpow_add₀ two_ne_zero 53] at hle
  exact_mod_cast hlt.le.trans hle

/-- A rounded mantissa has 53 bits unless the exponent is the least one. -/
theorem two_pow_le_nearest {x : ℝ} (hx : 0 < x) (h : lastPlace x ≠ -1074) :
    2 ^ 52 ≤ nearest (x / 2 ^ lastPlace x) := by
  have hunit := two_zpow_pos (lastPlace x)
  have hle : (2 : ℝ) ^ Int.log 2 x ≤ x := by exact_mod_cast Int.zpow_log_le_self one_lt_two hx
  have hlog : Int.log 2 x = 52 + lastPlace x := by simp only [lastPlace] at h ⊢; omega
  refine le_nearest_of_intCast_le ((le_div_iff₀ hunit).2 ?_)
  rw [hlog, zpow_add₀ two_ne_zero] at hle
  exact_mod_cast hle

theorem mantissa_ofMantissaAndAccuracy (m : ℕ) (accuracy : Accuracy) :
    (ExtendedMantissa.ofMantissaAndAccuracy m accuracy).mantissa = m := by
  rcases accuracy with _ | ⟨⟨⟩⟩ <;> rfl

/-- The first shift leaves the measure of the number in units of its last place. -/
theorem exists_shiftToTargetExponent {m : ℕ} {e : ℤ} {accuracy : Accuracy} {y : ℝ} (hpos : 0 < y)
    (hy : Represents (.ofMantissaAndAccuracy m accuracy) y) (he : e ≤ lastPlace (y * 2 ^ e)) :
    ∃ em, shiftToTargetExponent .binary64 m e accuracy = (em, lastPlace (y * 2 ^ e)) ∧
      Represents em (y * 2 ^ e / 2 ^ lastPlace (y * 2 ^ e)) := by
  have hfloor := hy.floor_eq
  rw [mantissa_ofMantissaAndAccuracy] at hfloor
  have hlast := lastPlace_eq_of_floor hpos hfloor he
  rw [← targetExponent_eq] at hlast
  obtain ⟨k, hk⟩ : ∃ k : ℕ, lastPlace (y * 2 ^ e) = e + k :=
    ⟨(lastPlace (y * 2 ^ e) - e).toNat, by omega⟩
  refine ⟨ExtendedMantissa.ofMantissaAndAccuracy m accuracy >>> k, ?_, ?_⟩
  · rw [shiftToTargetExponent, ← hlast, shiftToExponent, hk, show (e + k - e).toNat = k by omega]
  · rw [hk, mul_div_assoc, two_zpow_sub, sub_add_cancel_left, zpow_neg, zpow_natCast]
    exact hy.shiftRight k

theorem shiftToTargetExponent_of_lt {m : ℕ} {e : ℤ} (hm : m < 2 ^ 53) (he : -1074 ≤ e) :
    shiftToTargetExponent .binary64 m e .exact = (⟨m, false, false⟩, e) := by
  have hlog : m.log2 < 53 := by
    rcases Nat.eq_zero_or_pos m with rfl | hpos
    · simp
    · exact (Nat.log2_lt hpos.ne').2 hm
  rw [shiftToTargetExponent, targetExponent_eq, shiftToExponent,
    show (max (m.log2 + e - 52) (-1074) - e).toNat = 0 by omega, Nat.cast_zero, add_zero]
  rfl

/-- A mantissa that carries over into a 54th bit loses its last bit, which is zero. -/
theorem shiftToTargetExponent_two_pow {e : ℤ} (he : -1074 ≤ e) :
    shiftToTargetExponent .binary64 (2 ^ 53) e .exact = (⟨2 ^ 52, false, false⟩, e + 1) := by
  rw [shiftToTargetExponent, targetExponent_eq, shiftToExponent, Nat.log2_two_pow,
    show (max (((53 : ℕ) : ℤ) + e - 52) (-1074) - e).toNat = 1 by omega]
  rfl

/-- **What comes out of rounding is the exact result, rounded to its last place.** -/
theorem isRounding_roundWithAccuracy (s : Sign) {m : ℕ} {e : ℤ} {accuracy : Accuracy} {y : ℝ}
    (hpos : 0 < y) (hy : Represents (.ofMantissaAndAccuracy m accuracy) y)
    (he : e ≤ lastPlace (y * 2 ^ e)) :
    IsRounding s (y * 2 ^ e) (roundWithAccuracy .binary64 s m e accuracy) := by
  obtain ⟨em, hfirst, hem⟩ := exists_shiftToTargetExponent hpos hy he
  have hx : 0 < y * 2 ^ e := mul_pos hpos (two_zpow_pos e)
  generalize y * 2 ^ e = x at *
  have hr := hem.roundedMantissa_eq
  have hle := nearest_le_two_pow x
  have hge := two_pow_le_nearest hx
  have hmin : -1074 ≤ lastPlace x := le_max_right _ _
  have hrounded : rounded x = em.roundedMantissa * 2 ^ lastPlace x := by
    rw [rounded, ← hr, Int.cast_natCast]
  rw [← hr] at hle hge
  rw [roundWithAccuracy, hfirst]
  simp only
  -- the second shift does something only if rounding carries over into another bit
  rcases (show em.roundedMantissa ≤ 2 ^ 53 by exact_mod_cast hle).lt_or_eq with hlt | heq
  · rw [shiftToTargetExponent_of_lt hlt hmin]
    simp only
    split_ifs with hzero
    · exact ⟨trivial, Or.inl ⟨rfl, by rw [hrounded, hzero, Nat.cast_zero, zero_mul]⟩⟩
    · refine ⟨⟨hlt, hmin, ?_⟩, Or.inr ⟨_, _, _, rfl, hrounded.symm⟩⟩
      by_cases h : lastPlace x = -1074
      · exact Or.inr h
      · exact Or.inl (by exact_mod_cast hge h)
  · rw [heq, shiftToTargetExponent_two_pow hmin]
    refine ⟨⟨by norm_num, by omega, Or.inl le_rfl⟩, Or.inr ⟨_, _, by norm_num, rfl, ?_⟩⟩
    rw [hrounded, heq, zpow_add_one₀ two_ne_zero]
    push_cast
    ring

/-- A mantissa with 53 bits, or with the least exponent, has all the bits that rounding asks for. -/
theorem le_lastPlace {m : ℕ} {e : ℤ} (hm : 0 < m) (h : 52 ≤ m.log2 ∨ e ≤ -1074) :
    e ≤ lastPlace (m * 2 ^ e) := by
  rw [lastPlace_mul_two_zpow hm (Int.floor_natCast m)]
  omega

theorem isRounding_exact (s : Sign) {m : ℕ} {e : ℤ} (hm : 0 < m) (h : 52 ≤ m.log2 ∨ e ≤ -1074) :
    IsRounding s (m * 2 ^ e) (roundWithAccuracy .binary64 s m e .exact) :=
  isRounding_roundWithAccuracy s (Nat.cast_pos.2 hm) (represents_exact m) (le_lastPlace hm h)

/-- Rounding a number to which low bits are added if it has too few. -/
theorem isRounding_round (s : Sign) {m : ℕ} (e : ℤ) (hm : 0 < m) :
    IsRounding s (m * 2 ^ e) (UnpackedFloat.round .binary64 s m e) := by
  have hfloor : ⌊(m : ℝ)⌋ = m := Int.floor_natCast m
  have hlast := lastPlace_mul_two_zpow hm hfloor e
  obtain ⟨k, hk⟩ : ∃ k : ℕ, (e - lastPlace (m * 2 ^ e : ℝ)).toNat = k := ⟨_, rfl⟩
  -- the mantissa gets `k` more bits and the exponent makes up for them
  have hvalue : ((m * 2 ^ k : ℕ) * 2 ^ (e - k) : ℝ) = m * 2 ^ e := by
    push_cast
    rw [mul_assoc, ← zpow_natCast, ← zpow_add₀ two_ne_zero, add_sub_cancel]
  have := isRounding_roundWithAccuracy s (e := e - k)
    (Nat.cast_pos.2 (Nat.mul_pos hm (Nat.two_pow_pos k))) (represents_exact _)
    (by rw [hvalue]; omega)
  rw [hvalue] at this
  rw [UnpackedFloat.round, targetExponent_eq, ← hlast, decreaseExponent, hk, Nat.shiftLeft_eq]
  exact this

/-- Rounding a signed mantissa that is positive. -/
theorem isRounding_normalize {m : ℤ} (e : ℤ) (s : Sign) (hm : 0 < m) :
    IsRounding .positive (m * 2 ^ e) (UnpackedFloat.normalize .binary64 m e s) := by
  have := isRounding_round .positive e (show 0 < m.toNat by omega)
  rw [UnpackedFloat.normalize, Int.compare_eq_gt.2 hm]
  have hcast : (m.toNat : ℝ) = m := by exact_mod_cast Int.toNat_of_nonneg hm.le
  rwa [hcast] at this

/-! ### The stored result -/

theorem magnitude_lt_two_zpow_iff {m : ℕ} {e : ℤ} (hm : m < 2 ^ 53)
    (hlo : 2 ^ 52 ≤ m ∨ e = -1074) : (m * 2 ^ e : ℝ) < 2 ^ (1024 : ℤ) ↔ e ≤ 971 := by
  constructor
  · intro h
    by_contra hlt
    have hm' : 2 ^ 52 ≤ m := by omega
    refine absurd h (not_lt.2 ?_)
    calc (2 : ℝ) ^ (1024 : ℤ) = 2 ^ 52 * 2 ^ (972 : ℤ) := by
          rw [← zpow_natCast, ← zpow_add₀ two_ne_zero]; rfl
      _ ≤ 2 ^ 52 * 2 ^ e :=
          mul_le_mul_of_nonneg_left (zpow_le_zpow_right₀ one_le_two (by omega)) (by positivity)
      _ ≤ m * 2 ^ e :=
          mul_le_mul_of_nonneg_right (by exact_mod_cast hm') (two_zpow_pos e).le
  · intro h
    calc (m * 2 ^ e : ℝ) < 2 ^ 53 * 2 ^ e :=
          mul_lt_mul_of_pos_right (by exact_mod_cast hm) (two_zpow_pos e)
      _ ≤ 2 ^ 53 * 2 ^ (971 : ℤ) :=
          mul_le_mul_of_nonneg_left (zpow_le_zpow_right₀ one_le_two h) (by positivity)
      _ = 2 ^ (1024 : ℤ) := by rw [← zpow_natCast, ← zpow_add₀ two_ne_zero]; rfl

theorem unpackedValue_stored {u : UnpackedFloat} {x : ℝ} (h : IsRounding .positive x u) :
    unpackedValue (stored u) = fit x := by
  obtain ⟨hn, ⟨rfl, hx⟩ | ⟨m, e, hpos, rfl, hx⟩⟩ := h
  · rw [fit_coe, hx, if_pos (two_zpow_pos _)]
    rfl
  · obtain ⟨hm, -, hlo⟩ := hn
    rw [fit_coe, ← hx, stored]
    simp only [magnitude_lt_two_zpow_iff hm hlo]
    split_ifs <;> rfl

/-- A stored number that is not negative is stored as it is. -/
theorem fit_unpackedValue {u : UnpackedFloat} (hn : Normal u) (hs : stored u = u)
    (h : 0 ≤ unpackedValue u) : fit (unpackedValue u) = unpackedValue u := by
  rcases u with ⟨⟨⟩⟩ | _ | s | ⟨⟨⟩, m, e, hpos⟩
  · simp at h
  · exact fit_top
  · exact fit_zero
  · exact fit_zero
  · exact absurd h unpackedValue_lt_zero.not_ge
  · have hrounding : IsRounding .positive (m * 2 ^ e) (.finite .positive m e hpos) :=
      ⟨hn, Or.inr ⟨m, e, hpos, rfl, (rounded_of_fits hn.1 hn.2.1).symm⟩⟩
    have := unpackedValue_stored hrounding
    rw [hs] at this
    exact this.symm

end Binary64

end Proximity
