import Proximity.Proofs.Binary64.Result

/-!
# Sums, differences, squares and absolute values

The facts about binary64 arithmetic that distances rest on.  Adding a number that is not negative
never leads below the other summand (`Scalar.le_add`) and keeps the order
(`Scalar.add_le_add_right`), a square is a NaN or not negative, and neither the square nor the
absolute value of a difference changes if the operands are exchanged (`Scalar.square_sub_comm`,
`Scalar.abs_sub_comm`).  A negative zero never comes out of a sum of numbers that are not negative
unless one went in.
-/

namespace Proximity

namespace Binary64

open Float.Model Float.Model.UnpackedFloat

/-! ### Normal forms -/

theorem normal_normalize (m : ℤ) (e : ℤ) (s : Sign) :
    Normal (UnpackedFloat.normalize .binary64 m e s) := by
  rcases lt_trichotomy m 0 with h | rfl | h
  · rw [UnpackedFloat.normalize, Int.compare_eq_lt.2 h]
    exact (isRounding_round .negative e (by omega)).1
  · trivial
  · exact (isRounding_normalize e s h).1

theorem normal_add {u v : UnpackedFloat} (hu : Normal u) (hv : Normal v) :
    Normal (UnpackedFloat.add .binary64 u v) := by
  cases u <;> cases v <;> simp only [UnpackedFloat.add] <;> try split_ifs
  all_goals first | exact normal_normalize _ _ _ | exact hu | exact hv

theorem normal_sub {u v : UnpackedFloat} (hu : Normal u) (hv : Normal v) :
    Normal (UnpackedFloat.sub .binary64 u v) := by
  cases u <;> cases v <;> simp only [UnpackedFloat.sub] <;> try split_ifs
  all_goals first | exact normal_normalize _ _ _ | exact hu | exact hv

/-- The square of a mantissa has all the bits that rounding asks for. -/
theorem isRounding_square {s : Sign} {m : ℕ} {e : ℤ} {h : 0 < m} (hn : Normal (.finite s m e h)) :
    IsRounding .positive ((m * m : ℕ) * 2 ^ (e + e))
      (UnpackedFloat.mul .binary64 (.finite s m e h) (.finite s m e h)) := by
  have hs : s * s = .positive := by cases s <;> rfl
  rw [UnpackedFloat.mul, hs]
  refine isRounding_exact .positive (Nat.mul_pos h h) ?_
  -- a mantissa with 53 bits has a square with enough bits, and a shorter one has the least exponent
  rcases hn.2.2 with hm | he
  · exact Or.inl ((Nat.le_log2 (by positivity)).2 (by nlinarith))
  · exact Or.inr (by omega)

theorem normal_square {u : UnpackedFloat} (hu : Normal u) :
    Normal (UnpackedFloat.mul .binary64 u u) := by
  cases u with
  | finite s m e h => exact (isRounding_square hu).1
  | _ => trivial

theorem normal_abs {u : UnpackedFloat} (hu : Normal u) : Normal u.abs := by
  cases u <;> exact hu

theorem stored_neg (u : UnpackedFloat) : stored u.neg = (stored u).neg := by
  cases u with
  | finite s m e h => simp only [stored, UnpackedFloat.neg]; split_ifs <;> rfl
  | _ => rfl

theorem stored_abs (u : UnpackedFloat) : stored u.abs = (stored u).abs := by
  cases u with
  | finite s m e h => simp only [stored, UnpackedFloat.abs]; split_ifs <;> rfl
  | _ => rfl

/-! ### Sums of numbers that are not negative -/

theorem eq_of_nonneg {u : UnpackedFloat} (hu : u ≠ .notANumber) (h : 0 ≤ unpackedValue u) :
    u = .infinity .positive ∨ (∃ s, u = .zero s) ∨ ∃ m e hm, u = .finite .positive m e hm := by
  rcases u with ⟨⟨⟩⟩ | _ | s | ⟨⟨⟩, m, e, hm⟩
  · simp at h
  · exact Or.inl rfl
  · exact absurd rfl hu
  · exact Or.inr (Or.inl ⟨s, rfl⟩)
  · exact absurd h unpackedValue_lt_zero.not_ge
  · exact Or.inr (Or.inr ⟨m, e, hm, rfl⟩)

/-- Adding low bits to a mantissa keeps its value. -/
theorem shiftLeft_mul_two_zpow (m : ℕ) {e t : ℤ} (h : t ≤ e) :
    ((m <<< (e - t).toNat : ℕ) * 2 ^ t : ℝ) = m * 2 ^ e := by
  obtain ⟨k, rfl⟩ : ∃ k : ℕ, e = t + k := ⟨(e - t).toNat, by omega⟩
  rw [add_sub_cancel_left, Int.toNat_natCast, Nat.shiftLeft_eq, zpow_add₀ two_ne_zero, zpow_natCast]
  push_cast
  ring

theorem isRounding_add {m₁ m₂ : ℕ} (e₁ e₂ : ℤ) (h₁ : 0 < m₁) (h₂ : 0 < m₂) :
    IsRounding .positive (m₁ * 2 ^ e₁ + m₂ * 2 ^ e₂)
      (UnpackedFloat.add .binary64 (.finite .positive m₁ e₁ h₁) (.finite .positive m₂ e₂ h₂)) := by
  -- the sum is taken at the smaller exponent
  have hpos : 0 < m₁ <<< (e₁ - min e₁ e₂).toNat := by
    rw [Nat.shiftLeft_eq]
    positivity
  have := isRounding_normalize (min e₁ e₂) .positive
    (show (0 : ℤ) < (m₁ <<< (e₁ - min e₁ e₂).toNat : ℕ) + (m₂ <<< (e₂ - min e₁ e₂).toNat : ℕ) by
      exact_mod_cast Nat.add_pos_left hpos _)
  rw [← shiftLeft_mul_two_zpow m₁ (min_le_left e₁ e₂),
    ← shiftLeft_mul_two_zpow m₂ (min_le_right e₁ e₂), ← add_mul]
  exact_mod_cast this

/-- The form in which a number that is neither a NaN nor negative is stored. -/
structure IsNonneg (u : UnpackedFloat) : Prop where
  normal : Normal u
  stored_eq : stored u = u
  ne_notANumber : u ≠ .notANumber
  nonneg : 0 ≤ unpackedValue u

/-- A stored result that is the sum of two numbers, and a negative zero only if the first one is. -/
structure IsSum (u v w : UnpackedFloat) : Prop where
  ne_notANumber : w ≠ .notANumber
  value_eq : unpackedValue w = fit (unpackedValue u + unpackedValue v)
  ne_negative_zero : u ≠ .zero .negative → w ≠ .zero .negative

theorem IsRounding.stored_ne {x : ℝ} {u : UnpackedFloat} (h : IsRounding .positive x u) :
    stored u ≠ .notANumber ∧ stored u ≠ .zero .negative := by
  obtain ⟨-, ⟨rfl, -⟩ | ⟨m, e, hm, rfl, -⟩⟩ := h
  · simp [stored]
  · simp only [stored]
    split_ifs <;> simp

theorem isSum_infinity {u v : UnpackedFloat} (h : unpackedValue u + unpackedValue v = ⊤) :
    IsSum u v (.infinity .positive) :=
  ⟨by simp, by rw [h, fit_top]; rfl, by simp⟩

theorem isSum_zero {s t r : Sign} (h : r = .negative → s = .negative) :
    IsSum (.zero s) (.zero t) (.zero r) := by
  refine ⟨by simp, by simp [fit_zero], fun hs hr => ?_⟩
  rw [UnpackedFloat.zero.injEq] at hr
  exact hs (by rw [h hr])

theorem top_add_unpackedValue {v : UnpackedFloat} (hv : IsNonneg v) : ⊤ + unpackedValue v = ⊤ :=
  EReal.top_add_of_ne_bot (bot_lt_iff_ne_bot.1 (EReal.bot_lt_zero.trans_le hv.nonneg))

theorem isSum_stored_add {u v : UnpackedFloat} (hu : IsNonneg u) (hv : IsNonneg v) :
    IsSum u v (stored (UnpackedFloat.add .binary64 u v)) := by
  have hfu := fit_unpackedValue hu.normal hu.stored_eq hu.nonneg
  have hfv := fit_unpackedValue hv.normal hv.stored_eq hv.nonneg
  have hus := hu.stored_eq
  have hvs := hv.stored_eq
  rcases eq_of_nonneg hu.ne_notANumber hu.nonneg with rfl | ⟨s, rfl⟩ | ⟨m₁, e₁, h₁, rfl⟩
  · -- infinity is not left again
    have hadd : UnpackedFloat.add .binary64 (.infinity .positive) v = .infinity .positive := by
      rcases eq_of_nonneg hv.ne_notANumber hv.nonneg with rfl | ⟨t, rfl⟩ | ⟨m₂, e₂, h₂, rfl⟩ <;> rfl
    rw [hadd]
    exact isSum_infinity (top_add_unpackedValue hv)
  · rcases eq_of_nonneg hv.ne_notANumber hv.nonneg with rfl | ⟨t, rfl⟩ | ⟨m₂, e₂, h₂, rfl⟩
    · exact isSum_infinity (by simp)
    · cases s <;> cases t <;> exact isSum_zero (by simp)
    · have hadd : UnpackedFloat.add .binary64 (.zero s) (.finite .positive m₂ e₂ h₂) =
          .finite .positive m₂ e₂ h₂ := rfl
      rw [hadd, hvs]
      exact ⟨by simp, by rw [unpackedValue_zero, zero_add, hfv], by simp⟩
  · rcases eq_of_nonneg hv.ne_notANumber hv.nonneg with rfl | ⟨t, rfl⟩ | ⟨m₂, e₂, h₂, rfl⟩
    · exact isSum_infinity (by rw [add_comm]; exact top_add_unpackedValue hu)
    · have hadd : UnpackedFloat.add .binary64 (.finite .positive m₁ e₁ h₁) (.zero t) =
          .finite .positive m₁ e₁ h₁ := rfl
      rw [hadd, hus]
      exact ⟨by simp, by rw [unpackedValue_zero, add_zero, hfu], by simp⟩
    · have hsum := isRounding_add e₁ e₂ h₁ h₂
      refine ⟨hsum.stored_ne.1, ?_, fun _ => hsum.stored_ne.2⟩
      rw [unpackedValue_stored hsum, EReal.coe_add]
      rfl

/-- A square is not a NaN, and it is not negative. -/
theorem stored_square {u : UnpackedFloat} (hu : Normal u) (h : u ≠ .notANumber) :
    stored (UnpackedFloat.mul .binary64 u u) ≠ .notANumber ∧
      0 ≤ unpackedValue (stored (UnpackedFloat.mul .binary64 u u)) := by
  cases u with
  | notANumber => exact absurd rfl h
  | infinity s => cases s <;> exact ⟨by simp [UnpackedFloat.mul, stored], le_top⟩
  | zero s => exact ⟨by simp [UnpackedFloat.mul, stored], le_rfl⟩
  | finite s m e hm =>
    have hsquare := isRounding_square hu
    refine ⟨hsquare.stored_ne.1, ?_⟩
    rw [unpackedValue_stored hsquare, ← fit_zero]
    refine fit_le_fit le_rfl (EReal.coe_nonneg.2 ?_)
    exact mul_nonneg (Nat.cast_nonneg _) (two_zpow_pos _).le

/-! ### Exchanging the operands of a difference -/

theorem round_neg (s : Sign) (m : ℕ) (e : ℤ) :
    UnpackedFloat.round .binary64 (-s) m e = (UnpackedFloat.round .binary64 s m e).neg := by
  simp only [UnpackedFloat.round, roundWithAccuracy]
  split_ifs <;> rfl

theorem normalize_neg {m : ℤ} (hm : m ≠ 0) (e : ℤ) (s : Sign) :
    UnpackedFloat.normalize .binary64 (-m) e s = (UnpackedFloat.normalize .binary64 m e s).neg := by
  rcases lt_trichotomy m 0 with h | h | h
  · rw [UnpackedFloat.normalize, UnpackedFloat.normalize, Int.compare_eq_lt.2 h,
      Int.compare_eq_gt.2 (by omega), ← round_neg]
    rfl
  · exact absurd h hm
  · rw [UnpackedFloat.normalize, UnpackedFloat.normalize, Int.compare_eq_gt.2 h,
      Int.compare_eq_lt.2 (by omega), ← round_neg, neg_neg]
    rfl

/-- Exchanging the operands of a difference negates it, except that a zero may stay as it is. -/
def Swapped (u v : UnpackedFloat) : Prop :=
  v = u.neg ∨ (∃ s, u = .zero s) ∧ ∃ s, v = .zero s

theorem swapped_sub_finite {s₁ s₂ : Sign} {m₁ m₂ : ℕ} {e₁ e₂ : ℤ} {h₁ : 0 < m₁} {h₂ : 0 < m₂} :
    Swapped (UnpackedFloat.sub .binary64 (.finite s₁ m₁ e₁ h₁) (.finite s₂ m₂ e₂ h₂))
      (UnpackedFloat.sub .binary64 (.finite s₂ m₂ e₂ h₂) (.finite s₁ m₁ e₁ h₁)) := by
  simp only [UnpackedFloat.sub, decreaseExponent, min_comm e₂ e₁]
  generalize s₁.apply (m₁ <<< (e₁ - min e₁ e₂).toNat : ℕ) = x
  generalize s₂.apply (m₂ <<< (e₂ - min e₁ e₂).toNat : ℕ) = y
  rw [← neg_sub x y]
  -- a difference that vanishes is the positive zero in either order
  by_cases h : x - y = 0
  · rw [h]
    exact Or.inr ⟨⟨_, rfl⟩, _, rfl⟩
  · exact Or.inl (normalize_neg h _ _)

theorem swapped_sub (u v : UnpackedFloat) :
    Swapped (UnpackedFloat.sub .binary64 u v) (UnpackedFloat.sub .binary64 v u) := by
  rcases u with ⟨⟨⟩⟩ | _ | ⟨⟨⟩⟩ | ⟨⟨⟩, m₁, e₁, h₁⟩ <;>
    rcases v with ⟨⟨⟩⟩ | _ | ⟨⟨⟩⟩ | ⟨⟨⟩, m₂, e₂, h₂⟩ <;>
    first
    | exact swapped_sub_finite
    | exact Or.inl rfl
    | exact Or.inr ⟨⟨_, rfl⟩, _, rfl⟩

theorem Swapped.stored {u v : UnpackedFloat} (h : Swapped u v) : Swapped (stored u) (stored v) := by
  rcases h with rfl | ⟨⟨s, rfl⟩, t, rfl⟩
  · exact Or.inl (stored_neg u)
  · exact Or.inr ⟨⟨s, rfl⟩, t, rfl⟩

theorem Swapped.square_eq {u v : UnpackedFloat} (h : Swapped u v) :
    UnpackedFloat.mul .binary64 v v = UnpackedFloat.mul .binary64 u u := by
  rcases h with rfl | ⟨⟨s, rfl⟩, t, rfl⟩
  · rcases u with ⟨⟨⟩⟩ | _ | ⟨⟨⟩⟩ | ⟨⟨⟩, m, e, h⟩ <;> rfl
  · cases s <;> cases t <;> rfl

theorem Swapped.abs_eq {u v : UnpackedFloat} (h : Swapped u v) : v.abs = u.abs := by
  rcases h with rfl | ⟨⟨s, rfl⟩, t, rfl⟩
  · cases u <;> rfl
  · rfl

end Binary64

/-! ### Numbers -/

namespace Scalar

open Binary64 Float.Model

variable {a b c d : Float}

theorem unpack_add (a b : Float) : (a + b).toModel.unpack =
    stored (UnpackedFloat.add .binary64 a.toModel.unpack b.toModel.unpack) :=
  unpack_pack (normal_add (normal_unpack _) (normal_unpack _))

theorem unpack_sub (a b : Float) : (a - b).toModel.unpack =
    stored (UnpackedFloat.sub .binary64 a.toModel.unpack b.toModel.unpack) :=
  unpack_pack (normal_sub (normal_unpack _) (normal_unpack _))

theorem unpack_square (a : Float) : (a * a).toModel.unpack =
    stored (UnpackedFloat.mul .binary64 a.toModel.unpack a.toModel.unpack) :=
  unpack_pack (normal_square (normal_unpack _))

theorem unpack_abs (a : Float) : a.abs.toModel.unpack = a.toModel.unpack.abs := by
  have : a.abs.toModel.unpack = stored a.toModel.unpack.abs :=
    unpack_pack (normal_abs (normal_unpack _))
  rw [this, stored_abs, stored_unpack]

theorem value_zero : value 0 = 0 := rfl

theorem isNonneg_unpack (h : 0 ≤ a) : IsNonneg a.toModel.unpack := by
  obtain ⟨-, ha, hval⟩ := le_iff.1 h
  exact ⟨normal_unpack _, stored_unpack _, isNaN_eq_false_iff.1 ha, hval⟩

theorem isSum_unpack (ha : 0 ≤ a) (hb : 0 ≤ b) :
    IsSum a.toModel.unpack b.toModel.unpack (a + b).toModel.unpack := by
  rw [unpack_add]
  exact isSum_stored_add (isNonneg_unpack ha) (isNonneg_unpack hb)

/-- **Adding a number that is not negative does not lead below the other summand.** -/
theorem le_add (ha : 0 ≤ a) (hb : 0 ≤ b) : a ≤ a + b := by
  have hu := isNonneg_unpack ha
  have hv := isNonneg_unpack hb
  have hsum := isSum_unpack ha hb
  refine le_iff.2 ⟨isNaN_right_of_le ha, isNaN_eq_false_iff.2 hsum.ne_notANumber, ?_⟩
  calc value a = fit (value a) := (fit_unpackedValue hu.normal hu.stored_eq hu.nonneg).symm
    _ ≤ fit (value a + value b) := fit_le_fit hu.nonneg (le_add_of_nonneg_right hv.nonneg)
    _ = value (a + b) := hsum.value_eq.symm

theorem le_add_left (ha : 0 ≤ a) (hb : 0 ≤ b) : b ≤ a + b := by
  have hu := isNonneg_unpack ha
  have hv := isNonneg_unpack hb
  have hsum := isSum_unpack ha hb
  refine le_iff.2 ⟨isNaN_right_of_le hb, isNaN_eq_false_iff.2 hsum.ne_notANumber, ?_⟩
  calc value b = fit (value b) := (fit_unpackedValue hv.normal hv.stored_eq hv.nonneg).symm
    _ ≤ fit (value a + value b) := fit_le_fit hv.nonneg (le_add_of_nonneg_left hu.nonneg)
    _ = value (a + b) := hsum.value_eq.symm

/-- **Sums keep the order** of numbers that are not negative. -/
theorem add_le_add (ha : 0 ≤ a) (hab : a ≤ b) (hc : 0 ≤ c) (hcd : c ≤ d) : a + c ≤ b + d := by
  have hu := isNonneg_unpack ha
  have hv := isNonneg_unpack hc
  have hsum := isSum_unpack ha hc
  have hsum' := isSum_unpack (le_trans ha hab) (le_trans hc hcd)
  refine le_iff.2 ⟨isNaN_eq_false_iff.2 hsum.ne_notANumber,
    isNaN_eq_false_iff.2 hsum'.ne_notANumber, ?_⟩
  calc value (a + c) = fit (value a + value c) := hsum.value_eq
    _ ≤ fit (value b + value d) := by
      refine fit_le_fit (add_nonneg hu.nonneg hv.nonneg) ?_
      gcongr
      · exact (le_iff.1 hab).2.2
      · exact (le_iff.1 hcd).2.2
    _ = value (b + d) := hsum'.value_eq.symm

/-- **Adding the same number keeps the order** of numbers that are not negative. -/
theorem add_le_add_right (ha : 0 ≤ a) (hab : a ≤ b) (hc : 0 ≤ c) : a + c ≤ b + c :=
  add_le_add ha hab hc (le_refl (isNaN_right_of_le hc))

theorem add_ne_negative_zero (ha : 0 ≤ a) (hb : 0 ≤ b) (h : a ≠ -0) : a + b ≠ -0 := by
  intro hadd
  refine (isSum_unpack ha hb).ne_negative_zero (fun hu => h (eq_of_unpack_eq hu)) ?_
  rw [hadd]
  rfl

theorem isNaN_add (h : a.isNaN = true ∨ b.isNaN = true) : (a + b).isNaN = true := by
  rw [isNaN_iff, unpack_add]
  rcases h with h | h <;> rw [isNaN_iff.1 h]
  · rfl
  · cases a.toModel.unpack <;> rfl

@[simp] theorem isNaN_square (a : Float) : (a * a).isNaN = a.isNaN := by
  cases h : a.isNaN
  · rw [isNaN_eq_false_iff, unpack_square]
    exact (stored_square (normal_unpack _) (isNaN_eq_false_iff.1 h)).1
  · rw [isNaN_iff, unpack_square, isNaN_iff.1 h]
    rfl

theorem square_nonneg (h : a.isNaN = false) : 0 ≤ a * a := by
  refine le_iff.2 ⟨rfl, by rwa [isNaN_square], ?_⟩
  rw [value_zero, value, unpack_square]
  exact (stored_square (normal_unpack _) (isNaN_eq_false_iff.1 h)).2

@[simp] theorem isNaN_abs (a : Float) : a.abs.isNaN = a.isNaN := by
  change a.abs.toModel.unpack.isNaN = a.toModel.unpack.isNaN
  rw [unpack_abs]
  cases a.toModel.unpack <;> rfl

theorem abs_nonneg (h : a.isNaN = false) : 0 ≤ a.abs := by
  refine le_iff.2 ⟨rfl, by rwa [isNaN_abs], ?_⟩
  rw [value_zero, value, unpack_abs]
  cases a.toModel.unpack with
  | finite s m e hm => exact zero_lt_unpackedValue.le
  | infinity s => exact le_top
  | _ => exact le_rfl

theorem abs_ne_negative_zero (a : Float) : a.abs ≠ -0 := by
  intro habs
  have : a.toModel.unpack.abs = .zero .negative := by
    rw [← unpack_abs, habs]
    rfl
  cases hu : a.toModel.unpack <;> rw [hu] at this <;> simp [UnpackedFloat.abs] at this

/-- A number compares equal to zero if its absolute value does. -/
theorem abs_beq_zero (a : Float) : (a.abs == 0) = (a == 0) := by
  rw [Bool.eq_iff_iff, beq_iff, beq_iff, isNaN_abs, value_zero, value, value, unpack_abs]
  cases a.toModel.unpack with
  | finite s m e hm =>
    cases s <;> simp [UnpackedFloat.abs, zero_lt_unpackedValue.ne', unpackedValue_lt_zero.ne]
  | infinity s => cases s <;> simp [UnpackedFloat.abs]
  | _ => rfl

/-- The square of a difference does not depend on the order of its operands. -/
theorem square_sub_comm (a b : Float) : (a - b) * (a - b) = (b - a) * (b - a) := by
  refine eq_of_unpack_eq ?_
  have := (swapped_sub b.toModel.unpack a.toModel.unpack).stored.square_eq
  rw [unpack_square, unpack_square, unpack_sub, unpack_sub, this]

/-- The absolute value of a difference does not depend on the order of its operands. -/
theorem abs_sub_comm (a b : Float) : (a - b).abs = (b - a).abs := by
  refine eq_of_unpack_eq ?_
  have := (swapped_sub b.toModel.unpack a.toModel.unpack).stored.abs_eq
  rw [unpack_abs, unpack_abs, unpack_sub, unpack_sub, this]

end Scalar

end Proximity
