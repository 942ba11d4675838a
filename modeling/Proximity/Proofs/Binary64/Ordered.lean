import Proximity.Proofs.Binary64.Inexact
import Proximity.Scalar

/-!
# Operations that keep the order

The square root and the division by a positive number are monotone functions of extended real
numbers, followed by rounding, which is monotone too.  So they keep the order of numbers that are
not negative.  They keep infinity, they make a NaN out of a NaN only, and a negative zero out of a
negative zero only.

* `IsImage` : a stored result is a function of a number, rounded.
* `Scalar.sqrt_le_sqrt`, `Scalar.div_le_div` : **square roots and quotients keep the order**.
* `Scalar.sqrt_ofCount_pos`, `Scalar.sqrt_ofCount_lt_infinity` : the square root of a count is a
  divisor to which this applies.
-/

namespace Proximity

namespace Binary64

open Float.Model Float.Model.UnpackedFloat

/-! ### Images under a function -/

/-- A stored result that is `f` of a number, and a negative zero only if the number is one. -/
structure IsImage (f : EReal → EReal) (u w : UnpackedFloat) : Prop where
  ne_notANumber : w ≠ .notANumber
  value_eq : unpackedValue w = fit (f (unpackedValue u))
  ne_negative_zero : u ≠ .zero .negative → w ≠ .zero .negative

section IsImage

variable {f : EReal → EReal} {u w : UnpackedFloat}

theorem isImage_infinity (h : f (unpackedValue u) = ⊤) : IsImage f u (.infinity .positive) :=
  ⟨by simp, by rw [h, fit_top]; rfl, by simp⟩

theorem isImage_zero (s : Sign) (h : f 0 = 0) : IsImage f (.zero s) (.zero s) :=
  ⟨by simp, by rw [unpackedValue_zero, h, fit_zero], id⟩

theorem IsRounding.isImage_stored {x : ℝ} (h : IsRounding .positive x w)
    (hx : f (unpackedValue u) = x) : IsImage f u (stored w) :=
  ⟨h.stored_ne.1, by rw [hx, unpackedValue_stored h], fun _ => h.stored_ne.2⟩

end IsImage

/-- The square root of an extended real number that is not negative. -/
noncomputable def root (x : EReal) : EReal := if x = ⊤ then ⊤ else (√x.toReal : ℝ)

@[simp] theorem root_top : root ⊤ = ⊤ := if_pos rfl

@[simp] theorem root_coe (x : ℝ) : root x = (√x : ℝ) := by
  rw [root, if_neg (EReal.coe_ne_top x), EReal.toReal_coe]

theorem root_zero : root 0 = 0 := by
  rw [← EReal.coe_zero, root_coe, Real.sqrt_zero]

theorem root_nonneg (x : EReal) : 0 ≤ root x := by
  unfold root
  split_ifs
  · exact le_top
  · exact EReal.coe_nonneg.2 (Real.sqrt_nonneg _)

theorem root_le_root {x y : EReal} (hx : 0 ≤ x) (h : x ≤ y) : root x ≤ root y := by
  induction y with
  | bot => exact absurd (hx.trans h) (by simp)
  | top => rw [root_top]; exact le_top
  | coe y =>
    induction x with
    | bot => simp at hx
    | top => simp at h
    | coe x =>
      rw [root_coe, root_coe]
      exact EReal.coe_le_coe_iff.2 (Real.sqrt_le_sqrt (EReal.coe_le_coe_iff.1 h))

theorem normal_sqrt (u : UnpackedFloat) : Normal (UnpackedFloat.sqrt .binary64 u) := by
  rcases u with ⟨⟨⟩⟩ | _ | s | ⟨⟨⟩, m, e, hm⟩
  case finite.positive => exact (isRounding_sqrt hm).normal
  all_goals trivial

theorem isImage_sqrt {u : UnpackedFloat} (hu : u ≠ .notANumber) (h : 0 ≤ unpackedValue u) :
    IsImage root u (stored (UnpackedFloat.sqrt .binary64 u)) := by
  rcases eq_of_nonneg hu h with rfl | ⟨s, rfl⟩ | ⟨m, e, hm, rfl⟩
  · exact isImage_infinity root_top
  · exact isImage_zero s root_zero
  · exact (isRounding_sqrt hm).isImage_stored (root_coe _)

theorem normal_div (u v : UnpackedFloat) : Normal (UnpackedFloat.div .binary64 u v) := by
  cases u <;> cases v <;> first | exact (isRounding_div _ _ _ _).normal | trivial

theorem isImage_div {u : UnpackedFloat} (hu : u ≠ .notANumber) (h : 0 ≤ unpackedValue u) {m : ℕ}
    {e : ℤ} (hm : 0 < m) :
    IsImage (· / unpackedValue (.finite .positive m e hm)) u
      (stored (UnpackedFloat.div .binary64 u (.finite .positive m e hm))) := by
  rcases eq_of_nonneg hu h with rfl | ⟨s, rfl⟩ | ⟨m₁, e₁, hm₁, rfl⟩
  · exact isImage_infinity (EReal.top_div_of_pos_ne_top zero_lt_unpackedValue
      unpackedValue_lt_top.ne)
  · cases s <;> exact isImage_zero _ (EReal.zero_div)
  · exact (isRounding_div .positive .positive hm₁ hm).isImage_stored (EReal.coe_div _ _).symm

end Binary64

/-! ### Numbers -/

namespace Scalar

open Binary64 Float.Model

variable {a b c : Float}

theorem unpack_sqrt (a : Float) : a.sqrt.toModel.unpack =
    stored (UnpackedFloat.sqrt .binary64 a.toModel.unpack) :=
  unpack_pack (normal_sqrt _)

theorem unpack_div (a b : Float) : (a / b).toModel.unpack =
    stored (UnpackedFloat.div .binary64 a.toModel.unpack b.toModel.unpack) :=
  unpack_pack (normal_div _ _)

theorem isNaN_sqrt (h : a.isNaN = true) : a.sqrt.isNaN = true := by
  rw [isNaN_iff, unpack_sqrt, isNaN_iff.1 h]
  rfl

theorem isNaN_div (h : a.isNaN = true) (b : Float) : (a / b).isNaN = true := by
  rw [isNaN_iff, unpack_div, isNaN_iff.1 h]
  rfl

/-- Two numbers are in the order of their arguments if both are images under one monotone
function. -/
theorem le_of_isImage {f : EReal → EReal} (hf : ∀ x y, 0 ≤ x → x ≤ y → f x ≤ f y)
    (hf₀ : ∀ x, 0 ≤ x → 0 ≤ f x) {a' b' : Float} (ha : 0 ≤ a) (h : a ≤ b)
    (ha' : IsImage f a.toModel.unpack a'.toModel.unpack)
    (hb' : IsImage f b.toModel.unpack b'.toModel.unpack) : a' ≤ b' := by
  have hnonneg := (isNonneg_unpack ha).nonneg
  refine le_iff.2 ⟨isNaN_eq_false_iff.2 ha'.ne_notANumber, isNaN_eq_false_iff.2 hb'.ne_notANumber,
    ?_⟩
  rw [value, value, ha'.value_eq, hb'.value_eq]
  exact fit_le_fit (hf₀ _ hnonneg) (hf _ _ hnonneg (le_iff.1 h).2.2)

theorem isImage_unpack_sqrt (h : 0 ≤ a) :
    IsImage root a.toModel.unpack a.sqrt.toModel.unpack := by
  have hu := isNonneg_unpack h
  rw [unpack_sqrt]
  exact isImage_sqrt hu.ne_notANumber hu.nonneg

/-- **Square roots keep the order** of numbers that are not negative. -/
theorem sqrt_le_sqrt (ha : 0 ≤ a) (h : a ≤ b) : a.sqrt ≤ b.sqrt :=
  le_of_isImage (fun _ _ => root_le_root) (fun x _ => root_nonneg x) ha h
    (isImage_unpack_sqrt ha) (isImage_unpack_sqrt (le_trans ha h))

theorem sqrt_zero : (0 : Float).sqrt = 0 := by decide

theorem sqrt_nonneg (h : 0 ≤ a) : 0 ≤ a.sqrt := by
  have hzero := sqrt_le_sqrt (le_refl rfl) h
  rwa [sqrt_zero] at hzero

theorem sqrt_ne_negative_zero (ha : 0 ≤ a) (h : a ≠ -0) : a.sqrt ≠ -0 := by
  intro hsqrt
  refine (isImage_unpack_sqrt ha).ne_negative_zero (fun hu => h (eq_of_unpack_eq hu)) ?_
  rw [hsqrt]
  rfl

theorem sqrt_infinity : infinity.sqrt = infinity := by decide

theorem value_infinity : value infinity = ⊤ := rfl

/-- A positive number that is not infinite has a mantissa and an exponent. -/
theorem exists_unpack_eq (h : 0 < a) (ha : a < infinity) :
    ∃ m e hm, a.toModel.unpack = .finite .positive m e hm := by
  have hu := isNonneg_unpack (le_of_lt h)
  rcases eq_of_nonneg hu.ne_notANumber hu.nonneg with heq | ⟨s, heq⟩ | heq
  · have hlt := (lt_iff.1 ha).2.2
    rw [value_infinity, value, heq] at hlt
    exact hlt.false.elim
  · have hlt := (lt_iff.1 h).2.2
    rw [value_zero, value, heq] at hlt
    exact hlt.false.elim
  · exact heq

theorem isImage_unpack_div (ha : 0 ≤ a) (h : 0 < c) (hc : c < infinity) :
    IsImage (· / value c) a.toModel.unpack (a / c).toModel.unpack := by
  have hu := isNonneg_unpack ha
  obtain ⟨m, e, hm, heq⟩ := exists_unpack_eq h hc
  rw [unpack_div, value, heq]
  exact isImage_div hu.ne_notANumber hu.nonneg hm

/-- **Quotients keep the order** of numbers that are not negative. -/
theorem div_le_div (ha : 0 ≤ a) (hab : a ≤ b) (h : 0 < c) (hc : c < infinity) :
    a / c ≤ b / c := by
  have hpos : 0 ≤ value c := (lt_iff.1 h).2.2.le
  exact le_of_isImage (fun _ _ _ => EReal.div_le_div_right_of_nonneg hpos)
    (fun _ hx => EReal.div_nonneg hx hpos) ha hab (isImage_unpack_div ha h hc)
    (isImage_unpack_div (le_trans ha hab) h hc)

theorem div_ne_negative_zero (ha : 0 ≤ a) (ha₀ : a ≠ -0) (h : 0 < c) (hc : c < infinity) :
    a / c ≠ -0 := by
  intro hdiv
  refine (isImage_unpack_div ha h hc).ne_negative_zero (fun hu => ha₀ (eq_of_unpack_eq hu)) ?_
  rw [hdiv]
  rfl

theorem infinity_div (h : 0 < c) (hc : c < infinity) : infinity / c = infinity := by
  obtain ⟨m, e, hm, heq⟩ := exists_unpack_eq h hc
  refine eq_of_unpack_eq ?_
  rw [unpack_div, heq]
  rfl

theorem zero_div (h : 0 < c) (hc : c < infinity) : 0 / c = 0 := by
  obtain ⟨m, e, hm, heq⟩ := exists_unpack_eq h hc
  refine eq_of_unpack_eq ?_
  rw [unpack_div, heq]
  rfl

/-! ### Counts -/

theorem toNat_ofNatClamp (n : ℕ) : (UInt64.ofNatClamp n).toNat = min n (2 ^ 64 - 1) := by
  rw [UInt64.ofNatClamp]
  split_ifs with h <;> rw [UInt64.toNat_ofNatLT] <;> simp only [UInt64.size] at h ⊢ <;> omega

theorem isRounding_ofUInt64 {n : UInt64} (h : 0 < n.toNat) :
    IsRounding .positive n.toNat (UnpackedFloat.ofUInt64 .binary64 n) := by
  have := isRounding_normalize 0 .positive (Int.natCast_pos.2 h)
  rwa [zpow_zero, mul_one, Int.cast_natCast] at this

theorem unpack_toFloat (n : UInt64) : n.toFloat.toModel.unpack =
    stored (UnpackedFloat.ofUInt64 .binary64 n) :=
  unpack_pack (normal_normalize _ _ _)

theorem toFloat_le_toFloat {m n : UInt64} (hm : 0 < m.toNat) (h : m.toNat ≤ n.toNat) :
    m.toFloat ≤ n.toFloat := by
  have hm' := isRounding_ofUInt64 hm
  have hn' := isRounding_ofUInt64 (Nat.lt_of_lt_of_le hm h)
  refine le_iff.2 ⟨?_, ?_, ?_⟩
  · rw [isNaN_eq_false_iff, unpack_toFloat]
    exact hm'.stored_ne.1
  · rw [isNaN_eq_false_iff, unpack_toFloat]
    exact hn'.stored_ne.1
  · rw [value, value, unpack_toFloat, unpack_toFloat, unpackedValue_stored hm',
      unpackedValue_stored hn']
    refine fit_le_fit (EReal.coe_nonneg.2 (Nat.cast_nonneg _)) (EReal.coe_le_coe_iff.2 ?_)
    exact Nat.cast_le.2 h

theorem ofCount_bounds {n : ℕ} (h : 0 < n) :
    (1 : UInt64).toFloat ≤ ofCount n ∧ ofCount n ≤ (0xFFFFFFFFFFFFFFFF : UInt64).toFloat := by
  have hone : 1 ≤ (UInt64.ofNatClamp n).toNat := by
    rw [toNat_ofNatClamp]
    omega
  have hmax : (UInt64.ofNatClamp n).toNat ≤ 2 ^ 64 - 1 := by
    rw [toNat_ofNatClamp]
    exact Nat.min_le_right _ _
  exact ⟨toFloat_le_toFloat Nat.one_pos hone, toFloat_le_toFloat hone hmax⟩

theorem sqrt_ofCount_pos {n : ℕ} (h : 0 < n) : 0 < (ofCount n).sqrt := by
  have hone : 0 < (1 : UInt64).toFloat.sqrt := by decide +kernel
  exact lt_of_lt_of_le hone (sqrt_le_sqrt (by decide +kernel) (ofCount_bounds h).1)

theorem sqrt_ofCount_lt_infinity {n : ℕ} (h : 0 < n) : (ofCount n).sqrt < infinity := by
  have hmax : (0xFFFFFFFFFFFFFFFF : UInt64).toFloat.sqrt < infinity := by decide +kernel
  have hnonneg : 0 ≤ ofCount n := le_trans (by decide +kernel) (ofCount_bounds h).1
  exact lt_of_le_of_lt (sqrt_le_sqrt hnonneg (ofCount_bounds h).2) hmax

end Scalar

end Proximity
