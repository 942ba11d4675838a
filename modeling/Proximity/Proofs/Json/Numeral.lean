import Proximity.Json.Numeral
import Proximity.Proofs.Json.Grammar

/-!
# Reading numerals

A numeral of the grammar is read to its end if the text does not go on with one.  It denotes a count
if and only if it is the decimal notation of the count: a sign, a fraction or an exponent is not one
of its digits, and superfluous zeros are excluded by the grammar.

* `Interrupts` : the text does not go on with a numeral.
* `toDigits_foldl`, `toDigits_valueOf` : a whole part is the decimal notation of its value.
* `isNumeral_toDigits` : the decimal notation of a number is a numeral.
* `readNumeral_spelled` : **numerals of the grammar are read**, and which counts they denote.
* `isHuge_of_count?` : a count is never beyond the finite doubles.
-/

namespace Proximity

namespace Json

variable {s rest : List Char}

/-! ### Digits -/

/-- The text does not begin with a digit. -/
def NoDigit (s : List Char) : Prop := ∀ c ∈ s.head?, c.isDigit = false

/-- The text does not go on with a numeral. -/
def Interrupts (s : List Char) : Prop :=
  ∀ c ∈ s.head?, c.isDigit = false ∧ c ≠ '.' ∧ c ≠ 'e' ∧ c ≠ 'E'

theorem Interrupts.noDigit (h : Interrupts s) : NoDigit s := fun c hc => (h c hc).1

theorem interrupts_cons {c : Char} (h : c.isDigit = false ∧ c ≠ '.' ∧ c ≠ 'e' ∧ c ≠ 'E')
    (s : List Char) : Interrupts (c :: s) := by
  rintro d ⟨⟩
  exact h

theorem noDigit_cons {c : Char} (h : c.isDigit = false) (s : List Char) : NoDigit (c :: s) := by
  rintro d ⟨⟩
  exact h

/-- Digits are read up to the first character that is none. -/
theorem readDigits_append {digits : List Char} (h : IsDigits digits) (hrest : NoDigit rest) :
    readDigits (digits ++ rest) = .ok (digits, rest) := by
  obtain ⟨c, tail, rfl⟩ := List.exists_cons_of_ne_nil h.ne_nil
  obtain ⟨hc, htail⟩ := List.forall_mem_cons.1 h.isDigit
  have hstop : rest.takeWhile Char.isDigit = [] ∧ rest.dropWhile Char.isDigit = rest := by
    cases rest with
    | nil => exact ⟨rfl, rfl⟩
    | cons d rest => simp [hrest d rfl]
  rw [List.cons_append, readDigits, if_pos hc, List.takeWhile_append_of_pos htail,
    List.dropWhile_append_of_pos htail, hstop.1, hstop.2, List.append_nil]

/-! ### Parts of a numeral -/

theorem readWhole_append {whole : List Char} (h : IsWhole whole) (hrest : NoDigit rest) :
    readWhole (whole ++ rest) = .ok (whole, rest) := by
  have hzero : ¬ (whole.head? = some '0' ∧ whole.length ≠ 1) := by
    rintro ⟨hhead, hlen⟩
    exact hlen (by rw [h.zero hhead]; rfl)
  simp only [readWhole, readDigits_append h.digits hrest, if_neg hzero]

/-- A fraction is read without its point. -/
theorem readFraction_append {fraction : List Char} (h : IsFraction fraction)
    (hrest : NoDigit rest) (hpoint : '.' ∉ rest.head?) :
    readFraction (fraction ++ rest) = .ok (fraction.tail, rest) := by
  cases h with
  | absent =>
    change readFraction rest = .ok ([], rest)
    unfold readFraction
    split
    · exact absurd rfl hpoint
    · rfl
  | present h => exact readDigits_append h hrest

theorem takeSign_append {sign digits : List Char}
    (hsign : sign = [] ∨ sign = ['+'] ∨ sign = ['-']) (h : IsDigits digits) :
    ∃ negative, ∀ rest, takeSign (sign ++ (digits ++ rest)) = (negative, digits ++ rest) := by
  rcases hsign with rfl | rfl | rfl
  · obtain ⟨c, tail, rfl⟩ := List.exists_cons_of_ne_nil h.ne_nil
    refine ⟨false, fun rest => ?_⟩
    have hc : c.isDigit = true := h.isDigit c List.mem_cons_self
    rw [List.nil_append, List.cons_append, takeSign]
    · rintro _ ⟨⟩
      cases hc
    · rintro _ ⟨⟩
      cases hc
  · exact ⟨false, fun rest => rfl⟩
  · exact ⟨true, fun rest => rfl⟩

/-- An exponent is read, and it is seen whether there is one. -/
theorem readExponent_append {exponent : List Char} (h : IsExponent exponent)
    (hrest : Interrupts rest) :
    ∃ read, readExponent (exponent ++ rest) = .ok (read, rest) ∧
      (read = none ↔ exponent = []) := by
  cases h with
  | absent =>
    refine ⟨none, ?_, by simp⟩
    cases rest with
    | nil => rfl
    | cons c rest =>
      obtain ⟨-, -, he, hE⟩ := hrest c rfl
      simp [readExponent, he, hE]
  | @present letter sign digits hletter hsign h =>
    obtain ⟨negative, htake⟩ := takeSign_append hsign h
    refine ⟨some (if negative then -valueOf digits else valueOf digits), ?_, by simp⟩
    rw [List.cons_append, List.append_assoc, readExponent, if_pos hletter, htake]
    change Except.map _ (readDigits (digits ++ rest)) = _
    rw [readDigits_append h hrest.noDigit]
    rfl

/-- What follows the whole part does not go on with digits. -/
theorem IsExponent.head?_append {exponent : List Char} (h : IsExponent exponent)
    (hrest : Interrupts rest) :
    NoDigit (exponent ++ rest) ∧ '.' ∉ (exponent ++ rest).head? := by
  cases h with
  | absent => exact ⟨hrest.noDigit, fun hpoint => (hrest '.' hpoint).2.1 rfl⟩
  | present hletter hsign h =>
    rcases hletter with rfl | rfl
    · exact ⟨noDigit_cons rfl _, by rintro ⟨⟩⟩
    · exact ⟨noDigit_cons rfl _, by rintro ⟨⟩⟩

theorem IsFraction.noDigit_append {fraction : List Char} (h : IsFraction fraction)
    (hrest : NoDigit rest) : NoDigit (fraction ++ rest) := by
  cases h with
  | absent => exact hrest
  | present h => exact noDigit_cons rfl _

/-! ### The value of a whole part -/

/-- The number after one more digit. -/
def shiftIn (n : ℕ) (c : Char) : ℕ := n * 10 + (c.toNat - '0'.toNat)

theorem valueOf_eq_foldl (digits : List Char) : valueOf digits = digits.foldl shiftIn 0 := rfl

theorem valueOf_toDigits (n : ℕ) : valueOf (Nat.toDigits 10 n) = n := by
  have hfold : valueOf (Nat.toDigits 10 n) = Nat.ofDigitChars 10 (Nat.toDigits 10 n) 0 := by
    simp only [valueOf, Nat.ofDigitChars, Nat.mul_comm]
  rw [hfold, Nat.ofDigitChars_ten_toDigits]

theorem digitChar_of_isDigit {c : Char} (h : c.isDigit = true) :
    c.toNat - '0'.toNat < 10 ∧ (c.toNat - '0'.toNat).digitChar = c := by
  have hbounds := Char.isDigit_iff_toNat.1 h
  have hten : ∀ n < 10, n.digitChar = Char.ofNat ('0'.toNat + n) := by decide
  have hlt : c.toNat - '0'.toNat < 10 := by
    have hnine : '9'.toNat = '0'.toNat + 9 := rfl
    omega
  refine ⟨hlt, ?_⟩
  rw [hten _ hlt, Nat.add_sub_cancel' hbounds.1, Char.ofNat_toNat]

/-- Further digits extend the decimal notation of a number that is not zero. -/
theorem toDigits_foldl {digits : List Char} (h : ∀ c ∈ digits, c.isDigit = true) {n : ℕ}
    (hn : 0 < n) :
    Nat.toDigits 10 (digits.foldl shiftIn n) = Nat.toDigits 10 n ++ digits := by
  induction digits generalizing n with
  | nil => rw [List.foldl_nil, List.append_nil]
  | cons c digits ih =>
    obtain ⟨hc, hdigits⟩ := List.forall_mem_cons.1 h
    obtain ⟨hlt, hchar⟩ := digitChar_of_isDigit hc
    have hstep : shiftIn n c = 10 * n + (c.toNat - '0'.toNat) := by
      rw [shiftIn, Nat.mul_comm]
    calc Nat.toDigits 10 ((c :: digits).foldl shiftIn n)
      _ = Nat.toDigits 10 (shiftIn n c) ++ digits := ih hdigits (by omega)
      _ = Nat.toDigits 10 n ++ [c] ++ digits := by
        rw [hstep, ← Nat.toDigits_append_toDigits (by decide) hn hlt,
          Nat.toDigits_of_lt_base hlt, hchar]
      _ = Nat.toDigits 10 n ++ c :: digits := by rw [List.append_assoc]; rfl

/-- **A whole part is the decimal notation of its value.** -/
theorem toDigits_valueOf {whole : List Char} (h : IsWhole whole) :
    Nat.toDigits 10 (valueOf whole) = whole := by
  obtain ⟨c, digits, rfl⟩ := List.exists_cons_of_ne_nil h.digits.ne_nil
  obtain ⟨hc, hdigits⟩ := List.forall_mem_cons.1 h.digits.isDigit
  obtain ⟨hlt, hchar⟩ := digitChar_of_isDigit hc
  by_cases hzero : c = '0'
  · rw [h.zero (by rw [hzero]; rfl)]
    rfl
  · have hfirst : shiftIn 0 c = c.toNat - '0'.toNat := by
      rw [shiftIn, Nat.zero_mul, Nat.zero_add]
    have hpos : 0 < c.toNat - '0'.toNat := by
      refine Nat.pos_of_ne_zero fun hz => hzero ?_
      rw [← hchar, hz]
      rfl
    rw [valueOf_eq_foldl, List.foldl_cons, hfirst, toDigits_foldl hdigits hpos,
      Nat.toDigits_of_lt_base hlt, hchar]
    rfl

/-- The decimal notation of a number does not begin with a superfluous zero. -/
theorem eq_zero_of_head?_toDigits {n : ℕ} (h : (Nat.toDigits 10 n).head? = some '0') : n = 0 := by
  induction n using Nat.strongRecOn with
  | ind n ih =>
    rcases Nat.lt_or_ge n 10 with hlt | hge
    · have hdigit : ∀ n < 10, n.digitChar = '0' → n = 0 := by decide
      rw [Nat.toDigits_of_lt_base hlt, List.head?_cons, Option.some_inj] at h
      exact hdigit n hlt h
    · rw [Nat.toDigits_of_base_le (by decide) hge,
        List.head?_append_of_ne_nil _ Nat.toDigits_ne_nil] at h
      have hquotient : n / 10 = 0 := ih (n / 10) (by omega) h
      omega

theorem isNumeral_toDigits (n : ℕ) : IsNumeral (Nat.toDigits 10 n) := by
  have hwhole : IsWhole (Nat.toDigits 10 n) :=
    ⟨⟨Nat.toDigits_ne_nil, fun _ => Nat.isDigit_of_mem_toDigits (by decide) (by decide)⟩,
      fun h => by rw [eq_zero_of_head?_toDigits h, Nat.toDigits_zero]⟩
  have hnumeral := IsNumeral.mk (.inl rfl) hwhole .absent .absent
  rwa [List.nil_append, List.append_nil, List.append_nil] at hnumeral

/-! ### Counts -/

theorem le_foldl_shiftIn (digits : List Char) (n : ℕ) : n ≤ digits.foldl shiftIn n := by
  induction digits generalizing n with
  | nil => exact Nat.le_refl n
  | cons c digits ih =>
    have hstep : n ≤ shiftIn n c := by
      rw [shiftIn]
      omega
    exact Nat.le_trans hstep (ih _)

/-- Digits whose number fits are absorbed as a whole. -/
theorem absorb_of_lt {digits : List Char} {n : ℕ}
    (h : digits.foldl shiftIn n < UInt64.size) :
    Numeral.absorb n digits = (digits.foldl shiftIn n, []) := by
  induction digits generalizing n with
  | nil => rfl
  | cons c digits ih =>
    have hnext : shiftIn n c < UInt64.size := Nat.lt_of_le_of_lt (le_foldl_shiftIn digits _) h
    rw [Numeral.absorb]
    exact (if_pos hnext).trans (ih h)

theorem Numeral.count?_eq_some_iff {n : Numeral} {k : UInt64} :
    n.count? = some k ↔ n.negative = false ∧ n.fraction = [] ∧ n.exponent = none ∧
      valueOf n.whole = k.toNat := by
  unfold Numeral.count?
  split_ifs with hparts hlt
  · simp only [Bool.or_eq_true, Bool.not_eq_true', List.isEmpty_eq_false_iff,
      Option.isSome_iff_ne_none] at hparts
    simp only [false_iff]
    rintro ⟨hnegative, hfraction, hexponent, -⟩
    rcases hparts with (hparts | hparts) | hparts
    · rw [hnegative] at hparts
      cases hparts
    · exact hparts hfraction
    · exact hparts hexponent
  all_goals
    simp only [Bool.or_eq_true, Bool.not_eq_true', List.isEmpty_eq_false_iff,
      Option.isSome_iff_ne_none, not_or, Bool.not_eq_true, not_not] at hparts
    obtain ⟨⟨hnegative, hfraction⟩, hexponent⟩ := hparts
    simp only [hnegative, hfraction, hexponent, true_and]
  · rw [Option.some_inj, ← UInt64.toNat_inj, UInt64.toNat_ofNat_of_lt' hlt]
  · simp only [false_iff]
    rintro heq
    exact hlt (heq ▸ k.toNat_lt_size)

/-- **A count is never beyond the finite doubles.** -/
theorem isHuge_of_count? {n : Numeral} {k : UInt64} (h : n.count? = some k) :
    n.isHuge = false := by
  obtain ⟨-, hfraction, hexponent, hvalue⟩ := Numeral.count?_eq_some_iff.1 h
  have habsorb : Numeral.absorb 0 n.whole = (valueOf n.whole, []) :=
    absorb_of_lt (by rw [← valueOf_eq_foldl, hvalue]; exact k.toNat_lt_size)
  -- no digit is left and there is no power of ten
  have hscaled : n.scaled = (valueOf n.whole, 0) := by
    simp only [Numeral.scaled, habsorb, hfraction, hexponent, Numeral.absorb, List.length_nil]
    rfl
  simp only [Numeral.isHuge, hscaled, Int.lt_irrefl, decide_false, Bool.false_and]

/-! ### Numerals -/

/-- A numeral begins with a minus sign or a digit. -/
theorem IsNumeral.exists_cons (h : IsNumeral s) :
    ∃ c t, s = c :: t ∧ (c = '-' ∨ c.isDigit = true) := by
  cases h with
  | mk hsign hwhole hfraction hexponent =>
    rcases hsign with rfl | rfl
    · obtain ⟨c, tail, rfl⟩ := List.exists_cons_of_ne_nil hwhole.digits.ne_nil
      exact ⟨c, _, rfl, .inr (hwhole.digits.isDigit c List.mem_cons_self)⟩
    · exact ⟨'-', _, rfl, .inl rfl⟩

/-- The parts of a numeral are read one after the other. -/
theorem readUnsigned_append {whole fraction exponent : List Char} (hwhole : IsWhole whole)
    (hfraction : IsFraction fraction) (hexponent : IsExponent exponent) (hrest : Interrupts rest)
    (negative : Bool) :
    ∃ read, readUnsigned negative (whole ++ (fraction ++ (exponent ++ rest))) =
        .ok (⟨negative, whole, fraction.tail, read⟩, rest) ∧ (read = none ↔ exponent = []) := by
  obtain ⟨read, hread, hnone⟩ := readExponent_append hexponent hrest
  obtain ⟨hdigit, hpoint⟩ := hexponent.head?_append hrest
  refine ⟨read, ?_, hnone⟩
  simp only [readUnsigned, readWhole_append hwhole (hfraction.noDigit_append hdigit),
    readFraction_append hfraction hdigit hpoint, hread]
  rfl

theorem readNumeral_of_isWhole {whole : List Char} (h : IsWhole whole) (s : List Char) :
    readNumeral (whole ++ s) = readUnsigned false (whole ++ s) := by
  obtain ⟨c, tail, rfl⟩ := List.exists_cons_of_ne_nil h.digits.ne_nil
  have hc : c.isDigit = true := h.digits.isDigit c List.mem_cons_self
  rw [List.cons_append, readNumeral]
  rintro _ ⟨⟩
  cases hc

/-- The decimal notation of a count has neither of the other parts. -/
theorem eq_toDigits_iff {sign whole fraction exponent : List Char}
    (hsign : sign = [] ∨ sign = ['-']) (hwhole : IsWhole whole) (hfraction : IsFraction fraction)
    (hexponent : IsExponent exponent) (n : ℕ) :
    sign ++ (whole ++ (fraction ++ exponent)) = Nat.toDigits 10 n ↔
      sign = [] ∧ fraction = [] ∧ exponent = [] ∧ valueOf whole = n := by
  constructor
  · intro heq
    have hdigit : ∀ c ∈ sign ++ (whole ++ (fraction ++ exponent)), c.isDigit = true := fun c hc =>
      Nat.isDigit_of_mem_toDigits (by decide) (by decide) (heq ▸ hc)
    have hsign₀ : sign = [] := by
      rcases hsign with rfl | rfl
      · rfl
      · cases hdigit '-' (by simp)
    have hfraction₀ : fraction = [] := by
      cases hfraction with
      | absent => rfl
      | present h => cases hdigit '.' (by simp)
    have hexponent₀ : exponent = [] := by
      cases hexponent with
      | absent => rfl
      | @present letter _ _ hletter _ _ =>
        have hisDigit : letter.isDigit = true := hdigit letter (by simp)
        rcases hletter with rfl | rfl <;> cases hisDigit
    subst hsign₀ hfraction₀ hexponent₀
    rw [List.nil_append, List.append_nil, List.append_nil] at heq
    exact ⟨rfl, rfl, rfl, by rw [heq, valueOf_toDigits]⟩
  · rintro ⟨rfl, rfl, rfl, rfl⟩
    rw [List.nil_append, List.append_nil, List.append_nil, toDigits_valueOf hwhole]

/-- **A numeral of the grammar is read** to its end.  It denotes the count whose decimal notation it
is, and no other one. -/
theorem readNumeral_spelled (h : IsNumeral s) (hrest : Interrupts rest) :
    ∃ n, readNumeral (s ++ rest) = .ok (n, rest) ∧
      ∀ k : UInt64, n.count? = some k ↔ s = Nat.toDigits 10 k.toNat := by
  cases h with
  | @mk sign whole fraction exponent hsign hwhole hfraction hexponent =>
    obtain ⟨negative, hnegative, hread⟩ : ∃ negative, (negative = false ↔ sign = []) ∧
        readNumeral (sign ++ (whole ++ (fraction ++ exponent)) ++ rest) =
          readUnsigned negative (whole ++ (fraction ++ (exponent ++ rest))) := by
      simp only [List.append_assoc]
      rcases hsign with rfl | rfl
      · exact ⟨false, by simp, readNumeral_of_isWhole hwhole _⟩
      · exact ⟨true, by simp, rfl⟩
    obtain ⟨read, hunsigned, hnone⟩ :=
      readUnsigned_append hwhole hfraction hexponent hrest negative
    refine ⟨_, hread.trans hunsigned, fun k => ?_⟩
    have htail : fraction.tail = [] ↔ fraction = [] := by
      cases hfraction with
      | absent => simp
      | present h => simp [h.ne_nil]
    rw [eq_toDigits_iff hsign hwhole hfraction hexponent, Numeral.count?_eq_some_iff]
    simp only [hnegative, htail, hnone]

theorem skipNumeral_spelled (h : IsNumeral s) (hrest : Interrupts rest) :
    skipNumeral (s ++ rest) = .ok rest := by
  obtain ⟨n, hread, -⟩ := readNumeral_spelled h hrest
  simp only [skipNumeral, hread]

end Json

end Proximity
