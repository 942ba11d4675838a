import Proximity.Proofs.Binary64.Ordered

/-!
# Bounds on results

An operation on finite numbers can leave the finite range only upwards.  This file bounds its result
by the result of the same operation on larger operands, and square roots and quotients by the number
itself, so that a bound which is checked once holds for all smaller operands.

* `Scalar.abs_sub_le` : **the difference of two finite numbers** is no NaN, and no larger than the
  sum of their absolute values.
* `Scalar.square_le_square` : squares keep the order.
* `Scalar.isFinite_iff_lt_infinity` : a number that is not negative is finite below infinity.
* `Scalar.sqrt_lt_infinity`, `Scalar.div_lt_infinity` : square roots and quotients by numbers from
  one on are finite if the number is.
-/

namespace Proximity

namespace Binary64

open Float.Model Float.Model.UnpackedFloat

/-! ### Absolute differences -/

theorem IsRounding.abs_eq {x : ℝ} {u : UnpackedFloat} (h : IsRounding .positive x u) :
    u.abs = u := by
  obtain ⟨-, ⟨rfl, -⟩ | ⟨m, e, hm, rfl, -⟩⟩ := h <;> rfl

theorem neg_abs (u : UnpackedFloat) : u.neg.abs = u.abs := by
  cases u <;> rfl

/-- The absolute value of a rounded signed mantissa is the rounded absolute value. -/
theorem isRounding_abs_normalize {m : ℤ} (hm : m ≠ 0) (e : ℤ) (s : Sign) :
    IsRounding .positive ((|m| : ℤ) * 2 ^ e) (UnpackedFloat.normalize .binary64 m e s).abs := by
  rcases lt_or_gt_of_ne hm with h | h
  · have hneg := isRounding_normalize e s (Int.neg_pos_of_neg h)
    rw [normalize_neg hm] at hneg
    have habs := hneg.abs_eq
    rw [neg_abs] at habs
    rwa [habs, abs_of_neg h]
  · have hpos := isRounding_normalize e s h
    rwa [hpos.abs_eq, abs_of_pos h]

/-- The absolute difference of two finite numbers is that of two integers in a common unit, which is
not above their sum. -/
theorem exists_abs_sub_eq (s₁ s₂ : Sign) {m₁ m₂ : ℕ} (e₁ e₂ : ℤ) (h₁ : 0 < m₁) (h₂ : 0 < m₂) :
    ∃ x : ℝ, 0 ≤ x ∧ x ≤ magnitude m₁ e₁ + magnitude m₂ e₂ ∧
      stored (UnpackedFloat.sub .binary64 (.finite s₁ m₁ e₁ h₁) (.finite s₂ m₂ e₂ h₂)).abs ≠
        .notANumber ∧
      unpackedValue (stored (UnpackedFloat.sub .binary64
        (.finite s₁ m₁ e₁ h₁) (.finite s₂ m₂ e₂ h₂)).abs) = fit x := by
  rw [magnitude, magnitude, ← shiftLeft_mul_two_zpow m₁ (min_le_left e₁ e₂),
    ← shiftLeft_mul_two_zpow m₂ (min_le_right e₁ e₂), ← add_mul]
  simp only [UnpackedFloat.sub, decreaseExponent]
  generalize m₁ <<< (e₁ - min e₁ e₂).toNat = n₁
  generalize m₂ <<< (e₂ - min e₁ e₂).toNat = n₂
  generalize min e₁ e₂ = e
  have hle : |s₁.apply n₁ - s₂.apply n₂| ≤ (n₁ + n₂ : ℤ) := by
    cases s₁ <;> cases s₂ <;> simp only [Sign.apply] <;> rw [abs_le] <;> omega
  generalize s₁.apply n₁ - s₂.apply n₂ = m at *
  have hpos := two_zpow_pos e
  refine ⟨(|m| : ℤ) * 2 ^ e, by positivity, ?_, ?_⟩
  · exact mul_le_mul_of_nonneg_right (by exact_mod_cast hle) hpos.le
  · by_cases hm : m = 0
    · -- equal numbers have the difference zero
      subst hm
      refine ⟨by rintro ⟨⟩, ?_⟩
      rw [abs_zero, Int.cast_zero, zero_mul, EReal.coe_zero, fit_zero]
      rfl
    · have hrounding := isRounding_abs_normalize hm e .positive
      exact ⟨hrounding.stored_ne.1, unpackedValue_stored hrounding⟩

/-- The absolute difference of two finite numbers is not above the sum of their absolute values. -/
theorem unpackedValue_abs_sub_le {u v : UnpackedFloat} (hu : IsNonneg u.abs) (hv : IsNonneg v.abs)
    (hfu : u.isFinite = true) (hfv : v.isFinite = true) :
    stored (UnpackedFloat.sub .binary64 u v).abs ≠ .notANumber ∧
      unpackedValue (stored (UnpackedFloat.sub .binary64 u v).abs) ≤
        fit (unpackedValue u.abs + unpackedValue v.abs) := by
  have hfitu := fit_unpackedValue hu.normal hu.stored_eq hu.nonneg
  have hfitv := fit_unpackedValue hv.normal hv.stored_eq hv.nonneg
  cases u with
  | notANumber => cases hfu
  | infinity s => cases hfu
  | zero s =>
    have hsub : (UnpackedFloat.sub .binary64 (.zero s) v).abs = v.abs := by
      cases v with
      | zero t => cases s <;> cases t <;> rfl
      | finite t m e hm => rfl
      | _ => cases hfv
    rw [hsub, hv.stored_eq]
    refine ⟨hv.ne_notANumber, ?_⟩
    rw [UnpackedFloat.abs, unpackedValue_zero, zero_add, hfitv]
  | finite s₁ m₁ e₁ h₁ =>
    cases v with
    | notANumber => cases hfv
    | infinity t => cases hfv
    | zero t =>
      have hsub : (UnpackedFloat.sub .binary64 (.finite s₁ m₁ e₁ h₁) (.zero t)).abs =
          (UnpackedFloat.finite s₁ m₁ e₁ h₁).abs := rfl
      rw [hsub, hu.stored_eq]
      refine ⟨hu.ne_notANumber, ?_⟩
      rw [UnpackedFloat.abs.eq_def (.zero t), unpackedValue_zero, add_zero, hfitu]
    | finite s₂ m₂ e₂ h₂ =>
      obtain ⟨x, hx, hle, hne, hvalue⟩ := exists_abs_sub_eq s₁ s₂ e₁ e₂ h₁ h₂
      refine ⟨hne, ?_⟩
      rw [hvalue]
      exact fit_le_fit (EReal.coe_nonneg.2 hx) (EReal.coe_le_coe_iff.2 hle)

end Binary64

/-! ### Numbers -/

namespace Scalar

open Binary64 Float.Model

variable {a b c d : Float}

/-- The difference of two finite numbers is no NaN, and no larger than the sum of their absolute
values. -/
theorem abs_sub_le (ha : a.isFinite = true) (hb : b.isFinite = true) :
    (a - b).abs ≤ a.abs + b.abs := by
  have hnan : ∀ c : Float, c.isFinite = true → 0 ≤ c.abs := by
    intro c hc
    refine abs_nonneg (isNaN_eq_false_iff.2 fun hu => ?_)
    change c.toModel.unpack.isFinite = true at hc
    rw [hu] at hc
    cases hc
  have hu := isNonneg_unpack (hnan a ha)
  have hv := isNonneg_unpack (hnan b hb)
  have hsum := isSum_unpack (hnan a ha) (hnan b hb)
  rw [unpack_abs] at hu hv
  obtain ⟨hne, hle⟩ := unpackedValue_abs_sub_le hu hv ha hb
  rw [stored_abs, ← unpack_sub, ← unpack_abs] at hne hle
  refine le_iff.2 ⟨isNaN_eq_false_iff.2 hne, isNaN_eq_false_iff.2 hsum.ne_notANumber, ?_⟩
  rw [value, value, hsum.value_eq, unpack_abs a, unpack_abs b]
  exact hle

theorem isNaN_sub_of_isFinite (ha : a.isFinite = true) (hb : b.isFinite = true) :
    (a - b).isNaN = false := by
  rw [← isNaN_abs]
  exact isNaN_left_of_le (abs_sub_le ha hb)

/-! ### Squares -/

theorem isImage_unpack_square (h : 0 ≤ a) :
    IsImage (fun x => x * x) a.toModel.unpack (a * a).toModel.unpack := by
  have hu := isNonneg_unpack h
  rw [unpack_square]
  rcases eq_of_nonneg hu.ne_notANumber hu.nonneg with heq | ⟨s, heq⟩ | ⟨m, e, hm, heq⟩ <;>
    rw [heq]
  · exact isImage_infinity EReal.top_mul_top
  · cases s
    · exact ⟨nofun, by rw [unpackedValue_zero, zero_mul, fit_zero]; rfl, nofun⟩
    · exact isImage_zero _ (zero_mul 0)
  · have hsquare := isRounding_square (heq ▸ normal_unpack _)
    refine hsquare.isImage_stored ?_
    change (magnitude m e : EReal) * magnitude m e = _
    rw [← EReal.coe_mul, magnitude, zpow_add₀ two_ne_zero, Nat.cast_mul, mul_mul_mul_comm]

/-- **Squares keep the order** of numbers that are not negative. -/
theorem square_le_square (ha : 0 ≤ a) (h : a ≤ b) : a * a ≤ b * b :=
  le_of_isImage (fun _ _ hx hxy => mul_le_mul hxy hxy hx (hx.trans hxy))
    (fun _ hx => mul_nonneg hx hx) ha h (isImage_unpack_square ha)
    (isImage_unpack_square (le_trans ha h))

/-- A square is the square of the absolute value. -/
theorem abs_mul_abs (a : Float) : a.abs * a.abs = a * a := by
  refine eq_of_unpack_eq ?_
  rw [unpack_square, unpack_square, unpack_abs]
  rcases a.toModel.unpack with ⟨⟨⟩⟩ | _ | ⟨⟨⟩⟩ | ⟨⟨⟩, m, e, hm⟩ <;> rfl

/-! ### Staying below infinity -/

/-- A number that is not negative is finite below infinity. -/
theorem isFinite_iff_lt_infinity (h : 0 ≤ a) : a.isFinite = true ↔ a < infinity := by
  have hu := isNonneg_unpack h
  have hlt : a < infinity ↔ value a < ⊤ := by
    rw [lt_iff, value_infinity]
    exact ⟨fun h => h.2.2, fun hlt => ⟨isNaN_right_of_le h, isNaN_infinity, hlt⟩⟩
  rw [hlt, value]
  change a.toModel.unpack.isFinite = true ↔ _
  rcases eq_of_nonneg hu.ne_notANumber hu.nonneg with heq | ⟨s, heq⟩ | ⟨m, e, hm, heq⟩ <;>
    simp [heq, UnpackedFloat.isFinite]

/-- A number that is not below infinity is infinite. -/
theorem eq_infinity_of_not_lt (h : 0 ≤ a) (hinf : ¬ a < infinity) : a = infinity := by
  have hzero : a ≠ -0 := by
    rintro rfl
    exact hinf (by decide)
  refine eq_of_not_lt (isNaN_right_of_le h) isNaN_infinity hzero (by decide) hinf fun hgt => ?_
  have htop := (lt_iff.1 hgt).2.2
  rw [value_infinity] at htop
  exact not_top_lt htop

/-- An image is not above the number if the function does not lead above it. -/
theorem le_of_isImage_le {f : EReal → EReal} (ha : 0 ≤ a) (hf : f (value a) ≤ value a)
    (hf₀ : 0 ≤ f (value a)) (h : IsImage f a.toModel.unpack b.toModel.unpack) : b ≤ a := by
  have hu := isNonneg_unpack ha
  refine le_iff.2 ⟨isNaN_eq_false_iff.2 h.ne_notANumber, isNaN_right_of_le ha, ?_⟩
  calc value b = fit (f (value a)) := h.value_eq
    _ ≤ fit (value a) := fit_le_fit hf₀ hf
    _ = value a := fit_unpackedValue hu.normal hu.stored_eq hu.nonneg

theorem div_nonneg (ha : 0 ≤ a) (h : 0 < c) (hc : c < infinity) : 0 ≤ a / c := by
  have himage := isImage_unpack_div ha h hc
  refine le_iff.2 ⟨rfl, isNaN_eq_false_iff.2 himage.ne_notANumber, ?_⟩
  rw [value_zero, value, himage.value_eq, ← fit_zero]
  exact fit_le_fit le_rfl (EReal.div_nonneg (isNonneg_unpack ha).nonneg (lt_iff.1 h).2.2.le)

theorem value_one : value 1 = 1 := by
  change ((((2 ^ 52 : ℕ) : ℝ) * 2 ^ (-52 : ℤ) : ℝ) : EReal) = 1
  norm_num

/-- The square root of a finite number is finite. -/
theorem sqrt_lt_infinity (ha : 0 ≤ a) (h : a < infinity) : a.sqrt < infinity := by
  rcases le_or_le (isNaN_right_of_le ha) (rfl : (1 : Float).isNaN = false) with hle | hge
  · exact lt_of_le_of_lt (sqrt_le_sqrt ha hle) (by decide +kernel)
  · -- from one on a square root is not above the number
    have hone : 1 ≤ value a := value_one ▸ (le_iff.1 hge).2.2
    refine lt_of_le_of_lt (le_of_isImage_le ha ?_ (root_nonneg _) (isImage_unpack_sqrt ha)) h
    generalize value a = x at hone
    induction x with
    | bot => exact absurd (le_bot_iff.1 hone) (EReal.coe_ne_bot 1)
    | top => rw [root_top]
    | coe x =>
      have hx : 1 ≤ x := EReal.coe_le_coe_iff.1 hone
      rw [root_coe]
      exact EReal.coe_le_coe_iff.2 (Real.sqrt_le_self_iff.2 (.inr hx))

/-- A quotient of a finite number and one from one on is finite. -/
theorem div_lt_infinity (ha : 0 ≤ a) (h : a < infinity) (hc : 1 ≤ c) (hc' : c < infinity) :
    a / c < infinity := by
  have hone : 1 ≤ value c := value_one ▸ (le_iff.1 hc).2.2
  have hpos : 0 < c := lt_of_lt_of_le (by decide) hc
  have hnonneg : 0 ≤ value a := (isNonneg_unpack ha).nonneg
  refine lt_of_le_of_lt (le_of_isImage_le ha ?_ ?_ (isImage_unpack_div ha hpos hc')) h
  · refine (EReal.div_le_iff_le_mul (zero_lt_one.trans_le hone) (lt_iff.1 hc').2.2.ne).2 ?_
    exact le_mul_of_one_le_left hnonneg hone
  · exact EReal.div_nonneg hnonneg (zero_le_one.trans hone)

theorem one_le_sqrt_ofCount {n : ℕ} (h : 0 < n) : 1 ≤ (ofCount n).sqrt := by
  have hone : 1 ≤ (1 : UInt64).toFloat.sqrt := by decide +kernel
  exact le_trans hone (sqrt_le_sqrt (by decide +kernel) (ofCount_bounds h).1)

end Scalar

end Proximity
