import Proximity.Proofs.Binary64.Bounds

/-!
# Square roots of squares

Squaring a number and taking the root of the square rounds twice.  The number comes back, or a
larger one, if its square is not below the normal range: the square loses at most half of its last
place, the root therefore less than half of the last place of the number, and rounding the root
makes up for that.  A square below the normal range loses more than its relative share, up to all of
it.  Then the root can be smaller than the number, but not by more than `2 ^ (-537)`.

* `Scalar.powerOfHalf` : a power of one half.
* `le_rounded_sqrt_rounded_square`, `sub_le_rounded_sqrt_rounded_square` : squares above and below
  the normal range.
* `Scalar.le_sqrt_square` : **the root of a square is not below the number** from `2 ^ (-511)` on.
* `Scalar.le_sqrt_square_add` : for all numbers it is not far below.
-/

namespace Proximity

namespace Binary64

open Float.Model Float.Model.UnpackedFloat

/-! ### Rounding twice -/

theorem two_zpow_le_sqrt_rounded_square {x : ℝ} {k : ℤ} (hk : -537 ≤ k) (hle : 2 ^ k ≤ x) :
    2 ^ k ≤ √(rounded (x * x)) := by
  have hpos := two_zpow_pos k
  have hdouble : (2 : ℝ) ^ (2 * k) = 2 ^ k * 2 ^ k := by rw [two_mul, zpow_add₀ two_ne_zero]
  have hexact := rounded_of_fits (m := 1) (e := 2 * k) (by norm_num) (by omega)
  rw [Nat.cast_one, one_mul, hdouble] at hexact
  refine Real.le_sqrt_of_sq_le ?_
  rw [sq, ← hexact]
  exact rounded_le_rounded (mul_self_nonneg _) (mul_self_le_mul_self hpos.le hle)

/-- The root of a rounded square in the normal range is less than half of a last place below the
number. -/
theorem sub_lt_sqrt_rounded_square {x : ℝ} {k : ℤ} (hk : -511 ≤ k) (hle : 2 ^ k ≤ x)
    (hlt : x < 2 ^ (k + 1)) : x - 2 ^ (k - 53) < √(rounded (x * x)) := by
  have hpos := two_zpow_pos k
  have hscale : ∀ l : ℤ, (2 : ℝ) ^ (2 * k + l) = 2 ^ k * 2 ^ k * 2 ^ l := fun l => by
    rw [zpow_add₀ two_ne_zero, two_mul, zpow_add₀ two_ne_zero]
  have hx : 0 < x * x := mul_self_pos.2 (hpos.trans_le hle).ne'
  rw [zpow_add_one₀ two_ne_zero] at hlt
  rw [sub_eq_add_neg k, zpow_add₀ two_ne_zero]
  generalize (2 : ℝ) ^ k = u at *
  have huu : 0 < u * u := mul_pos hpos hpos
  have hux : u * u ≤ u * x := mul_le_mul_of_nonneg_left hle hpos.le
  have hexpand : (x - u * 2 ^ (-53 : ℤ)) ^ 2 =
      x * x - 2 * (u * x) * 2 ^ (-53 : ℤ) + u * u * 2 ^ (-106 : ℤ) := by
    norm_num
    ring
  refine (Real.lt_sqrt (by norm_num; linarith)).2 ?_
  rw [hexpand]
  -- the unit of the square depends on the half of its binade that the number is in
  rcases lt_or_ge (x * x) (2 ^ (2 * k + 1)) with hlow | hhigh
  · have hround := sub_le_rounded (k := 2 * k + -52) hx (by omega) (by rwa [add_assoc])
    rw [add_sub_assoc, hscale] at hround
    norm_num at hround ⊢
    linarith
  · have htop : x * x < u * u * 2 ^ (2 : ℤ) := by
      norm_num
      nlinarith
    have hround := sub_le_rounded (k := 2 * k + -51) hx (by omega) (by rwa [add_assoc, hscale])
    rw [add_sub_assoc, hscale] at hround
    rw [hscale] at hhigh
    norm_num at hround hhigh ⊢
    -- the number is at least the square root of two in units of its power of two
    have hfactor : 5 / 4 * u ≤ x := by nlinarith
    have hux' : u * (5 / 4 * u) ≤ u * x := mul_le_mul_of_nonneg_left hfactor hpos.le
    linarith

/-- The root of the square of a number with 53 bits is not below the number, if the square is in the
normal range. -/
theorem le_rounded_sqrt_rounded_square {m : ℕ} {e : ℤ} (hm : m < 2 ^ 53) (hlo : 2 ^ 52 ≤ m)
    (he : -563 ≤ e) : (m * 2 ^ e : ℝ) ≤ rounded √(rounded (m * 2 ^ e * (m * 2 ^ e))) := by
  obtain ⟨x, hx⟩ : ∃ x : ℝ, m * 2 ^ e = x := ⟨_, rfl⟩
  have hunit := two_zpow_pos e
  have hle : (2 : ℝ) ^ (e + 52) ≤ x := by
    rw [← hx, zpow_add₀ two_ne_zero, mul_comm]
    exact mul_le_mul_of_nonneg_right (by exact_mod_cast hlo) hunit.le
  have hlt : x < 2 ^ (e + 52 + 1) := by
    rw [← hx, add_assoc, zpow_add₀ two_ne_zero, mul_comm (2 ^ e : ℝ)]
    exact mul_lt_mul_of_pos_right (by exact_mod_cast hm) hunit
  rw [hx]
  obtain ⟨s, hs⟩ : ∃ s, √(rounded (x * x)) = s := ⟨_, rfl⟩
  have hloss := sub_lt_sqrt_rounded_square (by omega) hle hlt
  have hlow := two_zpow_le_sqrt_rounded_square (by omega) hle
  rw [hs] at hloss hlow ⊢
  rcases le_or_gt x s with h | h
  · calc x = rounded x := by rw [← hx, rounded_of_fits hm (by omega)]
      _ ≤ rounded s := rounded_le_rounded ((two_zpow_pos _).le.trans hle) h
  · -- a root below the number has the same last place, and less than half of it is missing
    have hplace : lastPlace s = e := by
      rw [lastPlace, log_eq_of_bounds hlow (h.trans hlt)]
      omega
    have hnear : (m : ℤ) ≤ nearest (s / 2 ^ e) := by
      refine le_nearest_of_sub_half_lt ((lt_div_iff₀ hunit).2 ?_)
      rw [show e + 52 - 53 = e - 1 by ring, zpow_sub_one₀ two_ne_zero, ← hx] at hloss
      push_cast
      linarith
    rw [rounded, hplace, ← hx]
    exact mul_le_mul_of_nonneg_right (by exact_mod_cast hnear) hunit.le

/-- The root of a square below the normal range is not far below the number. -/
theorem sub_le_rounded_sqrt_rounded_square {x : ℝ} (h₀ : 0 ≤ x) (h : x < 2 ^ (-511 : ℤ)) :
    x - 2 ^ (-537 : ℤ) ≤ rounded √(rounded (x * x)) := by
  rcases le_or_gt x (2 ^ (-537 : ℤ)) with hsmall | hlarge
  · have := rounded_nonneg (Real.sqrt_nonneg (rounded (x * x)))
    linarith
  have hhalf : (2 : ℝ) ^ (-538 : ℤ) = 2 ^ (-537 : ℤ) / 2 := zpow_sub_one₀ two_ne_zero (-537)
  have hunit : (2 : ℝ) ^ (-1075 : ℤ) = 2 ^ (-537 : ℤ) * 2 ^ (-537 : ℤ) / 2 := by
    rw [div_eq_mul_inv, ← zpow_add₀ two_ne_zero, ← zpow_sub_one₀ two_ne_zero]
    norm_num
  have hpos := two_zpow_pos (-537)
  have hx : x * x < 2 ^ (-1022 : ℤ) := by
    rw [show (-1022 : ℤ) = -511 + -511 by norm_num, zpow_add₀ two_ne_zero]
    exact mul_self_lt_mul_self h₀ h
  -- the square loses at most half of the finest unit
  have hround : x * x - 2 ^ (-1075 : ℤ) ≤ rounded (x * x) :=
    sub_le_rounded (k := -1074) (mul_self_pos.2 (hpos.trans hlarge).ne') le_rfl
      (hx.trans_le (zpow_le_zpow_right₀ one_le_two (by norm_num)))
  have hroot : x - 2 ^ (-538 : ℤ) ≤ √(rounded (x * x)) := by
    refine Real.le_sqrt_of_sq_le (le_trans ?_ hround)
    rw [hhalf, hunit]
    generalize (2 : ℝ) ^ (-537 : ℤ) = v at *
    nlinarith
  -- and the root loses less than that once more
  have hroot' : √(rounded (x * x)) - 2 ^ (-538 : ℤ) ≤ rounded √(rounded (x * x)) := by
    refine sub_le_rounded (k := -537) ?_ (by norm_num) ?_
    · rw [hhalf] at hroot
      linarith
    · have hle : rounded (x * x) ≤ 2 ^ (-1022 : ℤ) := by
        have := rounded_of_fits (m := 1) (e := -1022) (by norm_num) (by norm_num)
        rw [Nat.cast_one, one_mul] at this
        rw [← this]
        exact rounded_le_rounded (mul_self_nonneg x) hx.le
      refine (Real.sqrt_lt' (two_zpow_pos _)).2 (hle.trans_lt ?_)
      rw [← zpow_natCast, ← zpow_mul]
      exact zpow_lt_zpow_right₀ one_lt_two (by norm_num)
  rw [hhalf] at hroot hroot'
  linarith

theorem le_fit_root_fit {x y : ℝ} (h : x ≤ rounded √(rounded y)) :
    (x : EReal) ≤ fit (root (fit y)) := by
  rw [fit_coe y]
  split_ifs
  · rw [root_coe]
    exact le_fit h
  · rw [root_top, fit_top]
    exact le_top

end Binary64

/-! ### Numbers -/

namespace Scalar

open Binary64 Float.Model

variable {a : Float}

/-- The power of one half with the given exponent, which is at most 1022. -/
def powerOfHalf (e : ℕ) : Float := Float.ofBits (UInt64.ofNat (1023 - e) <<< 52)

theorem toBitVec_shiftLeft {n : ℕ} (h : n < 2 ^ 11) :
    (UInt64.ofNat n <<< 52).toBitVec =
      UnpackedFloat.packComponents .binary64 .positive (BitVec.ofNat 11 n) 0#52 := by
  refine BitVec.eq_of_toNat_eq ?_
  simp only [UnpackedFloat.packComponents]
  rw [BitVec.toNat_append, BitVec.toNat_append]
  simp [UnpackedFloat.Sign.toBitVec, Nat.shiftLeft_eq]
  omega

theorem unpack_powerOfHalf {e : ℕ} (h : e ≤ 1022) :
    (powerOfHalf e).toModel.unpack = .finite .positive (2 ^ 52) (-e - 52) (by decide) := by
  have hfield : (BitVec.ofNat 11 (1023 - e)).toNat = 1023 - e := by
    rw [BitVec.toNat_ofNat, Nat.mod_eq_of_lt (by omega)]
  have hbits : UnpackedFloat.unpack .binary64 (UInt64.ofNat (1023 - e) <<< 52).toBitVec =
      .finite .positive (2 ^ 52) (-e - 52) (by decide) := by
    rw [toBitVec_shiftLeft (by omega), unpack_packComponents,
      if_neg (ofNat_ne (by omega) (by omega) (by omega : 1023 - e ≠ 2047)),
      if_neg (ofNat_ne (by omega) (by omega) (by omega : 1023 - e ≠ 0))]
    simp only [UnpackedFloat.finite.injEq, true_and, hfield]
    exact ⟨rfl, by omega⟩
  have hnormal : Normal (.finite .positive (2 ^ 52) (-e - 52) (by decide)) :=
    ⟨by decide, by omega, .inl le_rfl⟩
  have hpack := unpack_pack hnormal
  rw [stored, if_pos (by omega), ← hbits] at hpack
  rw [← hbits]
  exact hpack

theorem value_powerOfHalf {e : ℕ} (h : e ≤ 1022) :
    value (powerOfHalf e) = ((2 ^ (-e : ℤ) : ℝ) : EReal) := by
  rw [value, unpack_powerOfHalf h, unpackedValue, magnitude, sub_eq_add_neg, zpow_add₀ two_ne_zero,
    mul_left_comm]
  norm_num

/-- The value of the root of a square. -/
theorem value_sqrt_square (h : 0 ≤ a) :
    value (a * a).sqrt = fit (root (fit (value a * value a))) := by
  have hsquare := square_nonneg (isNaN_right_of_le h)
  rw [value, (isImage_unpack_sqrt hsquare).value_eq, (isImage_unpack_square h).value_eq]
  rfl

/-- **The root of a square is not below the number**, if the square is in the normal range. -/
theorem le_sqrt_square (h : powerOfHalf 511 ≤ a) : a ≤ (a * a).sqrt := by
  have ha : 0 ≤ a := le_trans (by decide) h
  have hu := isNonneg_unpack ha
  have hlimit := (le_iff.1 h).2.2
  have hroot := sqrt_nonneg (square_nonneg (isNaN_right_of_le ha))
  refine le_iff.2 ⟨isNaN_right_of_le ha, isNaN_right_of_le hroot, ?_⟩
  rw [value_powerOfHalf (by norm_num)] at hlimit
  rw [value_sqrt_square ha]
  rw [value] at hlimit ⊢
  rcases eq_of_nonneg hu.ne_notANumber hu.nonneg with heq | ⟨s, heq⟩ | ⟨m, e, hm, heq⟩ <;>
    rw [heq] at hlimit ⊢
  · rw [unpackedValue_infinity_positive, EReal.top_mul_top, fit_top, root_top, fit_top]
  · exact absurd (EReal.coe_nonpos.1 hlimit) (two_zpow_pos _).not_ge
  · obtain ⟨hm', he, hlo⟩ : Normal (.finite .positive m e hm) := heq ▸ hu.normal
    -- the exponent of a number from the limit on is not the least one
    have he' : -563 ≤ e := by
      have hlt : (2 : ℝ) ^ (-511 : ℤ) < 2 ^ (53 + e) := by
        rw [zpow_add₀ two_ne_zero]
        refine (EReal.coe_le_coe_iff.1 hlimit).trans_lt ?_
        exact mul_lt_mul_of_pos_right (by exact_mod_cast hm') (two_zpow_pos e)
      have := (zpow_lt_zpow_iff_right₀ one_lt_two).1 hlt
      omega
    exact le_fit_root_fit (le_rounded_sqrt_rounded_square hm' (by omega) he')

/-- The root of a square is not far below the number. -/
theorem le_sqrt_square_add (h : 0 ≤ a) : a ≤ (a * a).sqrt + powerOfHalf 537 := by
  have hroot := sqrt_nonneg (square_nonneg (isNaN_right_of_le h))
  have hrest : 0 ≤ powerOfHalf 537 := by decide
  by_cases hlimit : powerOfHalf 511 ≤ a
  · exact le_trans (le_sqrt_square hlimit) (le_add hroot hrest)
  have hu := isNonneg_unpack h
  have hsum := isSum_unpack hroot hrest
  have hlt : value a < ((2 ^ (-511 : ℤ) : ℝ) : EReal) := by
    by_contra hge
    refine hlimit (le_iff.2 ⟨by decide, isNaN_right_of_le h, ?_⟩)
    rw [value_powerOfHalf (by norm_num)]
    exact not_lt.1 hge
  obtain ⟨x, hx⟩ : ∃ x : ℝ, value a = x :=
    ⟨_, (EReal.coe_toReal (hlt.trans (EReal.coe_lt_top _)).ne
      (EReal.bot_lt_zero.trans_le hu.nonneg).ne').symm⟩
  have hloss : ((x - 2 ^ (-537 : ℤ) : ℝ) : EReal) ≤ value (a * a).sqrt := by
    rw [value_sqrt_square h, hx, ← EReal.coe_mul]
    refine le_fit_root_fit (sub_le_rounded_sqrt_rounded_square ?_ ?_)
    · exact EReal.coe_nonneg.1 (hx ▸ hu.nonneg)
    · exact EReal.coe_lt_coe_iff.1 (hx ▸ hlt)
  refine le_iff.2 ⟨isNaN_right_of_le h, isNaN_eq_false_iff.2 hsum.ne_notANumber, ?_⟩
  calc value a = fit (value a) := (fit_unpackedValue hu.normal hu.stored_eq hu.nonneg).symm
    _ ≤ fit (value (a * a).sqrt + value (powerOfHalf 537)) := by
      refine fit_le_fit hu.nonneg ?_
      calc value a = ((x - 2 ^ (-537 : ℤ) : ℝ) : EReal) + ((2 ^ (-537 : ℤ) : ℝ) : EReal) := by
            rw [hx, ← EReal.coe_add, sub_add_cancel]
        _ ≤ value (a * a).sqrt + value (powerOfHalf 537) := by
            rw [value_powerOfHalf (by norm_num)]
            gcongr ?_ + _
    _ = value ((a * a).sqrt + powerOfHalf 537) := hsum.value_eq.symm

end Scalar

end Proximity
