import Proximity.Proofs.Binary64.Packing
import Proximity.Proofs.Binary64.Rounding

/-!
# The value of a number

Every binary64 number except a NaN denotes an extended real number, its *value*.  Comparing two
numbers is comparing their values (`lt_iff`, `le_iff`, `beq_iff`), so the laws of a linear order hold
for numbers that are not NaNs.  Only the two zeros share a value (`eq_of_unpackedValue_eq`).

## Main definitions

* `unpackedValue` : the value of an unpacked number.
* `value` : the value of a number.
-/

namespace Proximity

namespace Binary64

open Float.Model Float.Model.UnpackedFloat

/-- The value of an unpacked number; a NaN counts as zero. -/
noncomputable def unpackedValue : UnpackedFloat → EReal
  | .infinity .positive => ⊤
  | .infinity .negative => ⊥
  | .finite .positive m e _ => (magnitude m e : EReal)
  | .finite .negative m e _ => ((-magnitude m e : ℝ) : EReal)
  | .zero _ => 0
  | .notANumber => 0

/-- The value of a number; a NaN counts as zero. -/
noncomputable def value (a : Float) : EReal := unpackedValue a.toModel.unpack

/-! ### Comparing values -/

theorem magnitude_pos {m : ℕ} (h : 0 < m) (e : ℤ) : (0 : ℝ) < m * 2 ^ e :=
  mul_pos (by exact_mod_cast h) (two_zpow_pos e)

/-- A number in normal form with a larger exponent is larger. -/
theorem magnitude_lt_of_exponent_lt {m₁ m₂ : ℕ} {e₁ e₂ : ℤ} (h₁ : m₁ < 2 ^ 53) (he₁ : -1074 ≤ e₁)
    (h₂ : 2 ^ 52 ≤ m₂ ∨ e₂ = -1074) (he : e₁ < e₂) : (m₁ * 2 ^ e₁ : ℝ) < m₂ * 2 ^ e₂ := by
  have hm₂ : 2 ^ 52 ≤ m₂ := by omega
  calc (m₁ * 2 ^ e₁ : ℝ) < 2 ^ 53 * 2 ^ e₁ :=
        mul_lt_mul_of_pos_right (by exact_mod_cast h₁) (two_zpow_pos e₁)
    _ = 2 ^ 52 * 2 ^ (e₁ + 1) := by rw [zpow_add_one₀ two_ne_zero]; ring
    _ ≤ 2 ^ 52 * 2 ^ e₂ :=
        mul_le_mul_of_nonneg_left (zpow_le_zpow_right₀ one_le_two (by omega)) (by positivity)
    _ ≤ m₂ * 2 ^ e₂ :=
        mul_le_mul_of_nonneg_right (by exact_mod_cast hm₂) (two_zpow_pos e₂).le

/-- Magnitudes in normal form compare by exponent first and then by mantissa. -/
theorem cmp_magnitude {m₁ m₂ : ℕ} {e₁ e₂ : ℤ} (h₁ : m₁ < 2 ^ 53) (h₂ : m₂ < 2 ^ 53)
    (he₁ : -1074 ≤ e₁) (he₂ : -1074 ≤ e₂) (hn₁ : 2 ^ 52 ≤ m₁ ∨ e₁ = -1074)
    (hn₂ : 2 ^ 52 ≤ m₂ ∨ e₂ = -1074) :
    cmp (m₁ * 2 ^ e₁ : ℝ) (m₂ * 2 ^ e₂) = (compare e₁ e₂).then (compare m₁ m₂) := by
  rcases lt_trichotomy e₁ e₂ with h | rfl | h
  · rw [Int.compare_eq_lt.2 h]
    exact (cmp_eq_lt_iff _ _).2 (magnitude_lt_of_exponent_lt h₁ he₁ hn₂ h)
  · rw [Int.compare_eq_eq.2 rfl]
    have hmono : StrictMono fun m : ℕ => (m * 2 ^ e₁ : ℝ) := fun a b hab =>
      mul_lt_mul_of_pos_right (by exact_mod_cast hab) (two_zpow_pos e₁)
    rw [hmono.cmp_map_eq m₁ m₂]
    exact cmp_eq_compare m₁ m₂
  · rw [Int.compare_eq_gt.2 h]
    exact (cmp_eq_gt_iff _ _).2 (magnitude_lt_of_exponent_lt h₂ he₂ hn₁ h)

@[simp] theorem unpackedValue_infinity_positive : unpackedValue (.infinity .positive) = ⊤ := rfl

@[simp] theorem unpackedValue_infinity_negative : unpackedValue (.infinity .negative) = ⊥ := rfl

@[simp] theorem unpackedValue_zero (s : Sign) : unpackedValue (.zero s) = 0 := rfl

section finite

variable {m : ℕ} {e : ℤ} {h : 0 < m}

@[simp] theorem zero_lt_unpackedValue : 0 < unpackedValue (.finite .positive m e h) :=
  EReal.coe_pos.2 (magnitude_pos h e)

@[simp] theorem unpackedValue_lt_zero : unpackedValue (.finite .negative m e h) < 0 :=
  EReal.coe_neg'.2 (neg_neg_of_pos (magnitude_pos h e))

@[simp] theorem unpackedValue_lt_top {s : Sign} : unpackedValue (.finite s m e h) < ⊤ := by
  cases s <;> exact EReal.coe_lt_top _

@[simp] theorem bot_lt_unpackedValue {s : Sign} : ⊥ < unpackedValue (.finite s m e h) := by
  cases s <;> exact EReal.bot_lt_coe _

end finite

section finite

variable {m₁ m₂ : ℕ} {e₁ e₂ : ℤ} {h₁ : 0 < m₁} {h₂ : 0 < m₂}

theorem cmp_finite_positive (hu : Normal (.finite .positive m₁ e₁ h₁))
    (hv : Normal (.finite .positive m₂ e₂ h₂)) :
    cmp (unpackedValue (.finite .positive m₁ e₁ h₁)) (unpackedValue (.finite .positive m₂ e₂ h₂)) =
      (compare e₁ e₂).then (compare m₁ m₂) := by
  obtain ⟨hm₁, he₁, hn₁⟩ := hu
  obtain ⟨hm₂, he₂, hn₂⟩ := hv
  rw [← cmp_magnitude hm₁ hm₂ he₁ he₂ hn₁ hn₂]
  exact EReal.coe_strictMono.cmp_map_eq _ _

theorem cmp_finite_negative (hu : Normal (.finite .negative m₁ e₁ h₁))
    (hv : Normal (.finite .negative m₂ e₂ h₂)) :
    cmp (unpackedValue (.finite .negative m₁ e₁ h₁)) (unpackedValue (.finite .negative m₂ e₂ h₂)) =
      ((compare e₁ e₂).then (compare m₁ m₂)).swap := by
  obtain ⟨hm₁, he₁, hn₁⟩ := hu
  obtain ⟨hm₂, he₂, hn₂⟩ := hv
  have hanti : StrictAnti fun x : ℝ => ((-x : ℝ) : EReal) := fun x y hxy =>
    EReal.coe_strictMono (neg_lt_neg hxy)
  rw [← cmp_magnitude hm₁ hm₂ he₁ he₂ hn₁ hn₂, cmp_swap]
  exact hanti.cmp_map_eq _ _

theorem finite_negative_lt_finite_positive :
    unpackedValue (.finite .negative m₁ e₁ h₁) < unpackedValue (.finite .positive m₂ e₂ h₂) :=
  unpackedValue_lt_zero.trans zero_lt_unpackedValue

end finite

theorem compare_sign (s t : Sign) :
    compare s t = cmp (unpackedValue (.infinity s)) (unpackedValue (.infinity t)) := by
  symm
  cases s <;> cases t
  · exact cmp_self_eq_eq _
  · exact (cmp_eq_lt_iff _ _).2 bot_lt_top
  · exact (cmp_eq_gt_iff _ _).2 bot_lt_top
  · exact cmp_self_eq_eq _

/-- Comparing two unpacked numbers is comparing their values. -/
theorem compare_eq_cmp {u v : UnpackedFloat} (hu : Normal u) (hv : Normal v)
    (hu' : u ≠ .notANumber) (hv' : v ≠ .notANumber) :
    u.compare v = some (cmp (unpackedValue u) (unpackedValue v)) := by
  symm
  -- only for two finite numbers of one sign is there more to compare than the kinds
  rcases u with ⟨⟨⟩⟩ | _ | s | ⟨⟨⟩, m₁, e₁, h₁⟩ <;>
    rcases v with ⟨⟨⟩⟩ | _ | t | ⟨⟨⟩, m₂, e₂, h₂⟩ <;>
    simp [UnpackedFloat.compare, compare_sign, cmp_finite_positive, cmp_finite_negative,
      finite_negative_lt_finite_positive, hu, hv] at hu' hv' ⊢

/-- Only the zeros share a value. -/
theorem eq_of_unpackedValue_eq {u v : UnpackedFloat} (hu : Normal u) (hv : Normal v)
    (hu' : u ≠ .notANumber) (hv' : v ≠ .notANumber) (hu₀ : u ≠ .zero .negative)
    (hv₀ : v ≠ .zero .negative) (h : unpackedValue u = unpackedValue v) : u = v := by
  have hcmp : u.compare v = some .eq := by
    rw [compare_eq_cmp hu hv hu' hv', h, cmp_self_eq_eq]
  rcases u with ⟨⟨⟩⟩ | _ | ⟨⟨⟩⟩ | ⟨⟨⟩, m₁, e₁, h₁⟩ <;>
    rcases v with ⟨⟨⟩⟩ | _ | ⟨⟨⟩⟩ | ⟨⟨⟩, m₂, e₂, h₂⟩ <;>
    simp_all [UnpackedFloat.compare, Ordering.then_eq_eq]

/-! ### Unpacking -/

theorem eq_of_unpack_eq {a b : Float} (h : a.toModel.unpack = b.toModel.unpack) : a = b := by
  obtain ⟨⟨bits, hvalid⟩⟩ := a
  obtain ⟨⟨bits', hvalid'⟩⟩ := b
  have hbits : bits.toBitVec = bits'.toBitVec := (unpack_inj_of_valid hvalid hvalid').1 h
  obtain rfl := UInt64.toBitVec_inj.1 hbits
  rfl

theorem isNaN_iff {a : Float} : a.isNaN = true ↔ a.toModel.unpack = .notANumber := by
  change a.toModel.unpack.isNaN = true ↔ _
  cases a.toModel.unpack <;> simp [UnpackedFloat.isNaN]

theorem isNaN_eq_false_iff {a : Float} : a.isNaN = false ↔ a.toModel.unpack ≠ .notANumber := by
  rw [← Bool.not_eq_true, isNaN_iff]

theorem compare_eq_some {a b : Float} (ha : a.isNaN = false) (hb : b.isNaN = false) :
    a.toModel.unpack.compare b.toModel.unpack = some (cmp (value a) (value b)) :=
  compare_eq_cmp (normal_unpack _) (normal_unpack _) (isNaN_eq_false_iff.1 ha)
    (isNaN_eq_false_iff.1 hb)

theorem compare_eq_none {a b : Float} (h : ¬ (a.isNaN = false ∧ b.isNaN = false)) :
    a.toModel.unpack.compare b.toModel.unpack = none := by
  simp only [isNaN_eq_false_iff] at h
  cases ha : a.toModel.unpack <;> cases hb : b.toModel.unpack <;>
    simp_all [UnpackedFloat.compare]

end Binary64

/-! ### The order of numbers -/

namespace Scalar

open Binary64

/-- One number is below another if neither is a NaN and its value is smaller. -/
theorem lt_iff {a b : Float} :
    a < b ↔ a.isNaN = false ∧ b.isNaN = false ∧ value a < value b := by
  change (decide (a.toModel < b.toModel)) = true ↔ _
  rw [decide_eq_true_eq]
  change (a.toModel.unpack.compare b.toModel.unpack == some .lt) = true ↔ _
  rw [beq_iff_eq, ← and_assoc]
  by_cases h : a.isNaN = false ∧ b.isNaN = false
  · rw [compare_eq_some h.1 h.2]
    simp only [Option.some.injEq, cmp_eq_lt_iff, h, and_self, true_and]
  · rw [compare_eq_none h]
    simp only [reduceCtorEq, h, false_and]

/-- One number is at most another if neither is a NaN and its value is not larger. -/
theorem le_iff {a b : Float} :
    a ≤ b ↔ a.isNaN = false ∧ b.isNaN = false ∧ value a ≤ value b := by
  change (decide (a.toModel ≤ b.toModel)) = true ↔ _
  rw [decide_eq_true_eq]
  change (a.toModel.unpack.compare b.toModel.unpack).any (·.isLE) = true ↔ _
  rw [← and_assoc]
  by_cases h : a.isNaN = false ∧ b.isNaN = false
  · rw [compare_eq_some h.1 h.2, Option.any_some]
    simp only [h, and_self, true_and]
    rcases lt_trichotomy (value a) (value b) with hlt | heq | hgt
    · simp [(cmp_eq_lt_iff _ _).2 hlt, hlt.le]
    · simp [heq]
    · simp [(cmp_eq_gt_iff _ _).2 hgt, hgt]
  · rw [compare_eq_none h]
    simp only [Option.any_none, Bool.false_eq_true, h, false_and]

/-- Two numbers compare equal if neither is a NaN and they have the same value. -/
theorem beq_iff {a b : Float} :
    (a == b) = true ↔ a.isNaN = false ∧ b.isNaN = false ∧ value a = value b := by
  change (a.toModel.unpack.compare b.toModel.unpack == some .eq) = true ↔ _
  rw [beq_iff_eq, ← and_assoc]
  by_cases h : a.isNaN = false ∧ b.isNaN = false
  · rw [compare_eq_some h.1 h.2]
    simp only [Option.some.injEq, cmp_eq_eq_iff, h, and_self, true_and]
  · rw [compare_eq_none h]
    simp only [reduceCtorEq, h, false_and]

variable {a b c : Float}

/-- Only a NaN differs from itself. -/
theorem beq_self_iff : (a == a) = true ↔ a.isNaN = false := by
  simp only [beq_iff, and_true, and_self]

theorem lt_irrefl (a : Float) : ¬ a < a := fun h => (lt_iff.1 h).2.2.false

theorem isNaN_left_of_lt (h : a < b) : a.isNaN = false := (lt_iff.1 h).1

theorem isNaN_left_of_le (h : a ≤ b) : a.isNaN = false := (le_iff.1 h).1

theorem isNaN_right_of_le (h : a ≤ b) : b.isNaN = false := (le_iff.1 h).2.1

theorem lt_trans (h : a < b) (h' : b < c) : a < c := by
  obtain ⟨ha, -, hab⟩ := lt_iff.1 h
  obtain ⟨-, hc, hbc⟩ := lt_iff.1 h'
  exact lt_iff.2 ⟨ha, hc, hab.trans hbc⟩

theorem lt_of_le_of_lt (h : a ≤ b) (h' : b < c) : a < c := by
  obtain ⟨ha, -, hab⟩ := le_iff.1 h
  obtain ⟨-, hc, hbc⟩ := lt_iff.1 h'
  exact lt_iff.2 ⟨ha, hc, hab.trans_lt hbc⟩

theorem lt_of_lt_of_le (h : a < b) (h' : b ≤ c) : a < c := by
  obtain ⟨ha, -, hab⟩ := lt_iff.1 h
  obtain ⟨-, hc, hbc⟩ := le_iff.1 h'
  exact lt_iff.2 ⟨ha, hc, hab.trans_le hbc⟩

theorem le_trans (h : a ≤ b) (h' : b ≤ c) : a ≤ c := by
  obtain ⟨ha, -, hab⟩ := le_iff.1 h
  obtain ⟨-, hc, hbc⟩ := le_iff.1 h'
  exact le_iff.2 ⟨ha, hc, hab.trans hbc⟩

theorem le_refl (ha : a.isNaN = false) : a ≤ a := le_iff.2 ⟨ha, ha, le_rfl⟩

theorem le_of_lt (h : a < b) : a ≤ b := by
  obtain ⟨ha, hb, hab⟩ := lt_iff.1 h
  exact le_iff.2 ⟨ha, hb, hab.le⟩

theorem le_of_not_lt (ha : a.isNaN = false) (hb : b.isNaN = false) (h : ¬ b < a) : a ≤ b :=
  le_iff.2 ⟨ha, hb, not_lt.1 fun hlt => h (lt_iff.2 ⟨hb, ha, hlt⟩)⟩

theorem le_or_le (ha : a.isNaN = false) (hb : b.isNaN = false) : a ≤ b ∨ b ≤ a :=
  (le_total (value a) (value b)).imp (fun h => le_iff.2 ⟨ha, hb, h⟩)
    fun h => le_iff.2 ⟨hb, ha, h⟩

/-- Numbers of which none is below the other are equal, unless one of them is a NaN or the negative
zero. -/
theorem eq_of_not_lt (ha : a.isNaN = false) (hb : b.isNaN = false) (ha₀ : a ≠ -0) (hb₀ : b ≠ -0)
    (h : ¬ a < b) (h' : ¬ b < a) : a = b := by
  have hval : value a = value b :=
    le_antisymm (le_iff.1 (le_of_not_lt ha hb h')).2.2 (le_iff.1 (le_of_not_lt hb ha h)).2.2
  exact eq_of_unpack_eq (eq_of_unpackedValue_eq (normal_unpack _) (normal_unpack _)
    (isNaN_eq_false_iff.1 ha) (isNaN_eq_false_iff.1 hb)
    (fun h => ha₀ (eq_of_unpack_eq h)) (fun h => hb₀ (eq_of_unpack_eq h)) hval)

/-- There is one NaN. -/
theorem eq_of_isNaN (ha : a.isNaN = true) (hb : b.isNaN = true) : a = b :=
  eq_of_unpack_eq ((isNaN_iff.1 ha).trans (isNaN_iff.1 hb).symm)

end Scalar

end Proximity
