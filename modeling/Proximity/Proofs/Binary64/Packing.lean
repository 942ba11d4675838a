import Mathlib

/-!
# Packed and unpacked numbers

A binary64 number is kept as 64 bits and computed with as a sign, a mantissa and an exponent.  This
file relates the two forms.  Unpacked bits are in *normal form* (`normal_unpack`): the mantissa has
53 bits, or fewer if the exponent is the least one.  A number in normal form is what its packed
form unpacks to (`unpack_pack`), except that it becomes an infinity if its exponent is too large,
and packing undoes unpacking (`pack_unpack`).
-/

namespace Proximity

namespace Binary64

open Float.Model Float.Model.UnpackedFloat

/-- The mantissa of a finite number has 53 bits, or fewer if its exponent is the least one. -/
def Normal : UnpackedFloat → Prop
  | .finite _ m e _ => m < 2 ^ 53 ∧ -1074 ≤ e ∧ (2 ^ 52 ≤ m ∨ e = -1074)
  | _ => True

/-- What is left of a number in normal form when it is packed: a number whose exponent is too large
becomes an infinity. -/
def stored : UnpackedFloat → UnpackedFloat
  | .finite s m e h => if e ≤ 971 then .finite s m e h else .infinity s
  | u => u

/-! ### The three fields -/

theorem toNat_one_append (M : BitVec 52) : (1#1 ++ M).toNat = 2 ^ 52 + M.toNat := by
  rw [BitVec.toNat_append, ← Nat.shiftLeft_add_eq_or_of_lt M.isLt]
  rfl

theorem unpack_packComponents (s : Sign) (E : BitVec 11) (M : BitVec 52) :
    UnpackedFloat.unpack .binary64 (packComponents .binary64 s E M) =
      if E = 2047#11 then if M = 0#52 then .infinity s else .notANumber
      else if E = 0#11 then
        if h : M = 0#52 then .zero s
        else .finite s M.toNat (-1074) (by simpa [BitVec.toNat_pos, BitVec.pos_iff_ne_zero])
      else .finite s (2 ^ 52 + M.toNat) (E.toNat - 1075) (by omega) := by
  have hbias : Format.binary64.exponentBias = 1023 := rfl
  have hones : (-1#11 : BitVec 11) = 2047#11 := rfl
  simp only [UnpackedFloat.unpack, unpackExponent_packComponents, unpackMantissa_packComponents,
    unpackSign_packComponents, Sign.ofBitVec_toBitVec, toNat_one_append, hbias, hones]
  split_ifs with h1 h2 h3 h4
  · rfl
  · rfl
  · rfl
  · subst h3
    rfl
  · rfl

/-! ### Unpacking what was packed -/

theorem pack_finite (s : Sign) {m : ℕ} {e : ℤ} (h : 0 < m) :
    UnpackedFloat.pack .binary64 (.finite s m e h) =
      if 2 ^ 11 ≤ (e + 1075).toNat + 1 then packComponents .binary64 s 2047#11 0#52
      else if m.log2 = 52 then
        packComponents .binary64 s (BitVec.ofNat 11 (e + 1075).toNat) (BitVec.ofNat 52 m)
      else packComponents .binary64 s 0#11 (BitVec.ofNat 52 m) := by
  have hsum : e + Format.binary64.exponentBias + (52 : ℕ) = e + 1075 := by
    rw [show Format.binary64.exponentBias = 1023 from rfl]
    omega
  simp only [UnpackedFloat.pack, hsum, packedInfinity]
  split_ifs with h1 h2 h3 h3
  · rfl
  · rfl
  · exact absurd (by simpa [Format.mantissaBits] using h2) h3
  · exact absurd (by simp [Format.mantissaBits, h3]) h2
  · rfl

theorem log2_eq_52 {m : ℕ} (hlo : 2 ^ 52 ≤ m) (hhi : m < 2 ^ 53) : m.log2 = 52 :=
  (Nat.log2_eq_iff (by omega)).2 ⟨hlo, hhi⟩

theorem log2_lt_52 {m : ℕ} (h : m < 2 ^ 52) : m.log2 < 52 := by
  rcases Nat.eq_zero_or_pos m with rfl | hpos
  · simp
  · exact (Nat.log2_lt hpos.ne').2 h

theorem ofNat_ne {w a b : ℕ} (ha : a < 2 ^ w) (hb : b < 2 ^ w) (h : a ≠ b) :
    BitVec.ofNat w a ≠ BitVec.ofNat w b := by
  intro heq
  have := congrArg BitVec.toNat heq
  rw [BitVec.toNat_ofNat, BitVec.toNat_ofNat, Nat.mod_eq_of_lt ha, Nat.mod_eq_of_lt hb] at this
  exact h this

theorem unpack_pack_normal (s : Sign) {m : ℕ} {e : ℤ} (h : 0 < m) (hlo : 2 ^ 52 ≤ m)
    (hhi : m < 2 ^ 53) (he : -1074 ≤ e) (hmax : e ≤ 971) :
    UnpackedFloat.unpack .binary64 (UnpackedFloat.pack .binary64 (.finite s m e h)) =
      .finite s m e h := by
  have hE : (BitVec.ofNat 11 (e + 1075).toNat).toNat = (e + 1075).toNat := by
    rw [BitVec.toNat_ofNat, Nat.mod_eq_of_lt (by omega)]
  have hm : 2 ^ 52 + (BitVec.ofNat 52 m).toNat = m := by
    rw [BitVec.toNat_ofNat]
    omega
  rw [pack_finite, if_neg (by omega), if_pos (log2_eq_52 hlo hhi), unpack_packComponents,
    if_neg (ofNat_ne (by omega) (by omega) (by omega : (e + 1075).toNat ≠ 2047)),
    if_neg (ofNat_ne (by omega) (by omega) (by omega : (e + 1075).toNat ≠ 0))]
  simp only [hm, hE, UnpackedFloat.finite.injEq, true_and]
  omega

theorem unpack_pack_subnormal (s : Sign) {m : ℕ} (h : 0 < m) (hhi : m < 2 ^ 52) :
    UnpackedFloat.unpack .binary64 (UnpackedFloat.pack .binary64 (.finite s m (-1074) h)) =
      .finite s m (-1074) h := by
  have hm : (BitVec.ofNat 52 m).toNat = m := by
    rw [BitVec.toNat_ofNat, Nat.mod_eq_of_lt hhi]
  rw [pack_finite, if_neg (by decide), if_neg (log2_lt_52 hhi).ne, unpack_packComponents,
    if_neg (by decide), if_pos rfl, dif_neg (ofNat_ne hhi (by omega) h.ne')]
  simp only [hm]

/-- **Unpacking undoes packing** for a number in normal form, unless its exponent is too large. -/
theorem unpack_pack {u : UnpackedFloat} (h : Normal u) : (pack u).unpack = stored u := by
  cases u with
  | infinity s => cases s <;> rfl
  | notANumber => rfl
  | zero s => cases s <;> rfl
  | finite s m e hpos =>
    obtain ⟨hhi, he, hlo⟩ := h
    simp only [stored]
    split_ifs with hmax
    · by_cases hlo' : 2 ^ 52 ≤ m
      · exact unpack_pack_normal s hpos hlo' hhi he hmax
      · obtain rfl : e = -1074 := by omega
        exact unpack_pack_subnormal s hpos (by omega)
    · change UnpackedFloat.unpack .binary64 (UnpackedFloat.pack .binary64 _) = _
      rw [pack_finite, if_pos (by omega)]
      cases s <;> rfl

/-! ### What is unpacked -/

theorem unpack_eq_of_fields {f : Float.Model} {s : Sign} {E : BitVec 11} {M : BitVec 52}
    (h : packComponents .binary64 s E M = f.toBits.toBitVec) :
    f.unpack = UnpackedFloat.unpack .binary64 (packComponents .binary64 s E M) := by
  rw [h]
  rfl

/-- A number is made of its three fields. -/
theorem exists_fields (f : Float.Model) :
    ∃ (s : Sign) (E : BitVec 11) (M : BitVec 52),
      packComponents .binary64 s E M = f.toBits.toBitVec :=
  ⟨_, _, _, @packComponents_unpackSign_unpackExponent_unpackMantissa .binary64 f.toBits.toBitVec⟩

theorem normal_unpack (f : Float.Model) : Normal f.unpack := by
  obtain ⟨s, E, M, h⟩ := exists_fields f
  have hM := M.isLt
  rw [unpack_eq_of_fields h, unpack_packComponents]
  split_ifs with h1 h2 h3 h4
  · trivial
  · trivial
  · trivial
  · exact ⟨by omega, le_rfl, Or.inr rfl⟩
  · have : E.toNat ≠ 0 := fun h => h3 (BitVec.eq_of_toNat_eq h)
    exact ⟨by omega, by omega, Or.inl (by omega)⟩

theorem stored_unpack (f : Float.Model) : stored f.unpack = f.unpack := by
  obtain ⟨s, E, M, h⟩ := exists_fields f
  have hE := E.isLt
  rw [unpack_eq_of_fields h, unpack_packComponents]
  split_ifs with h1 h2 h3 h4
  · rfl
  · rfl
  · rfl
  · rw [stored, if_pos (by omega)]
  · have : E.toNat ≠ 2047 := fun h => h1 (BitVec.eq_of_toNat_eq h)
    rw [stored, if_pos (by omega)]

end Binary64

end Proximity
