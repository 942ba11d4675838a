import Proximity.Proofs.Json.Grammar

/-!
# Reading and skipping string literals

A literal of the grammar is read to what it stands for, and it is skipped to its end.  Both go
character by character.  A character outside the first plane is escaped by two code units: reading
puts them together again, and skipping passes over one after the other.

* `readEscape_coded` : a character is read from its code units.
* `readText_spelled`, `skipText_spelled` : **literals of the grammar are read and skipped**.
-/

namespace Proximity

namespace Json

variable {c : Char} {content s rest : List Char} {u : ℕ} {units : List ℕ}

/-! ### Code units -/

theorem hexValue?_digitChar :
    ∀ n < 16, hexValue? n.digitChar = some n ∧ hexValue? n.digitChar.toUpper = some n := by
  decide

theorem IsHexDigit.hexValue?_eq {n : ℕ} (h : IsHexDigit c n) : hexValue? c = some n := by
  obtain ⟨hn, rfl | rfl⟩ := h
  · exact (hexValue?_digitChar n hn).1
  · exact (hexValue?_digitChar n hn).2

/-- An escaped code unit is read behind its `u`. -/
theorem EscapesUnits.exists_readUnit (h : EscapesUnits (u :: units) s) :
    ∃ t t', s = '\\' :: 'u' :: t ∧ EscapesUnits units t' ∧
      ∀ rest, readUnit (t ++ rest) = .ok (u, t' ++ rest) := by
  cases h with
  | cons ha hb hc hd h =>
    refine ⟨_, _, rfl, h, fun rest => ?_⟩
    simp only [List.cons_append, readUnit, ha.hexValue?_eq, hb.hexValue?_eq, hc.hexValue?_eq,
      hd.hexValue?_eq]

theorem codeUnits_of_lt (h : c.toNat < 0x10000) : codeUnits c = [c.toNat] := if_pos h

theorem codeUnits_of_le (h : 0x10000 ≤ c.toNat) :
    codeUnits c = [0xD800 + (c.toNat - 0x10000) / 0x400, 0xDC00 + (c.toNat - 0x10000) % 0x400] :=
  if_neg (Nat.not_lt.2 h)

/-- A character is not half of a surrogate pair, and it lies in one of seventeen planes. -/
theorem toNat_bounds (c : Char) : c.toNat < 0xD800 ∨ 0xDFFF < c.toNat ∧ c.toNat < 0x110000 :=
  c.valid

/-- The halves of a surrogate pair give its character. -/
theorem pairedChar_codeUnits (h : 0x10000 ≤ c.toNat) :
    pairedChar (0xD800 + (c.toNat - 0x10000) / 0x400) (0xDC00 + (c.toNat - 0x10000) % 0x400) =
      c := by
  have hvalue : (0xD800 + (c.toNat - 0x10000) / 0x400 - 0xD800) * 0x400 +
      (0xDC00 + (c.toNat - 0x10000) % 0x400 - 0xDC00) + 0x10000 = c.toNat := by omega
  rw [pairedChar, hvalue, Char.ofNat_toNat]

theorem readCoded_of_lt (hc : c.toNat < 0x10000) (h : readUnit s = .ok (c.toNat, rest)) :
    readCoded s = .ok (c, rest) := by
  have hbounds := toNat_bounds c
  have hlow : isLowSurrogate c.toNat = false := by
    simp only [isLowSurrogate, Bool.and_eq_false_iff, decide_eq_false_iff_not]
    omega
  have hhigh : isHighSurrogate c.toNat = false := by
    simp only [isHighSurrogate, Bool.and_eq_false_iff, decide_eq_false_iff_not]
    omega
  simp only [readCoded, h, hlow, hhigh, Bool.false_eq_true, ↓reduceIte, Char.ofNat_toNat]

theorem readCoded_of_le {t : List Char} (hc : 0x10000 ≤ c.toNat)
    (hhigh : readUnit s = .ok (0xD800 + (c.toNat - 0x10000) / 0x400, '\\' :: 'u' :: t))
    (hlow : readUnit t = .ok (0xDC00 + (c.toNat - 0x10000) % 0x400, rest)) :
    readCoded s = .ok (c, rest) := by
  have hbounds := toNat_bounds c
  have hfirst : isLowSurrogate (0xD800 + (c.toNat - 0x10000) / 0x400) = false := by
    simp only [isLowSurrogate, Bool.and_eq_false_iff, decide_eq_false_iff_not]
    omega
  have hfirst' : isHighSurrogate (0xD800 + (c.toNat - 0x10000) / 0x400) = true := by
    simp only [isHighSurrogate, Bool.and_eq_true, decide_eq_true_eq]
    omega
  have hsecond : isLowSurrogate (0xDC00 + (c.toNat - 0x10000) % 0x400) = true := by
    simp only [isLowSurrogate, Bool.and_eq_true, decide_eq_true_eq]
    omega
  simp only [readCoded, hhigh, hfirst, hfirst', readLowSurrogate, hlow, hsecond,
    pairedChar_codeUnits hc, Bool.false_eq_true, ↓reduceIte]

/-- **A character is read from its code units.** -/
theorem readEscape_coded (h : EscapesUnits (codeUnits c) s) :
    ∃ t, s = '\\' :: t ∧ ∀ rest, readEscape (t ++ rest) = .ok (c, rest) := by
  by_cases hc : c.toNat < 0x10000
  · rw [codeUnits_of_lt hc] at h
    obtain ⟨t, t', rfl, hnil, hread⟩ := h.exists_readUnit
    cases hnil
    exact ⟨'u' :: t, rfl, fun rest => readCoded_of_lt hc (hread rest)⟩
  · rw [Nat.not_lt] at hc
    rw [codeUnits_of_le hc] at h
    obtain ⟨t₁, s₁, rfl, h₁, hhigh⟩ := h.exists_readUnit
    obtain ⟨t₂, s₂, rfl, hnil, hlow⟩ := h₁.exists_readUnit
    cases hnil
    exact ⟨'u' :: t₁, rfl, fun rest => readCoded_of_le hc (hhigh rest) (hlow rest)⟩

/-! ### Reading -/

theorem readText_quote (s : List Char) : readText ('"' :: s) = .ok ([], s) := by
  rw [readText]

theorem readText_escape (h : readEscape s = .ok (c, rest)) :
    readText ('\\' :: s) = (readText rest).map fun read => (c :: read.1, read.2) := by
  rw [readText]
  split
  · rename_i h'
    rw [h] at h'
    cases h'
  · rename_i h'
    rw [h] at h'
    cases h'
    rfl

/-- A character of a literal is read, however it is spelled. -/
theorem SpellsChar.readText_append (h : SpellsChar c s) (rest : List Char) :
    readText (s ++ rest) = (readText rest).map fun read => (c :: read.1, read.2) := by
  cases h with
  | plain hcontrol hquote hbackslash =>
    change readText (c :: rest) = _
    rw [readText, if_neg (by simpa [isControl] using hcontrol)]
    · exact hquote
    · exact hbackslash
  | @escaped letter _ h =>
    refine readText_escape ?_
    have hletter : letter ≠ 'u' := by
      rintro rfl
      cases h
    change readEscape (letter :: rest) = .ok (c, rest)
    rw [readEscape, h]
    exact hletter
  | coded h =>
    obtain ⟨t, rfl, hread⟩ := readEscape_coded h
    exact readText_escape (hread rest)

/-- **A literal of the grammar is read** to what it stands for. -/
theorem readText_spelled (h : SpellsText content s) (rest : List Char) :
    readText (s ++ '"' :: rest) = .ok (content, rest) := by
  induction h with
  | nil => exact readText_quote rest
  | cons hc _ ih =>
    rw [List.append_assoc, hc.readText_append, ih]
    rfl

/-! ### Skipping -/

theorem skipText_quote (s : List Char) : skipText ('"' :: s) = .ok s := by
  rw [skipText]

theorem skipText_escape (h : skipEscape s = .ok rest) : skipText ('\\' :: s) = skipText rest := by
  rw [skipText]
  split
  · rename_i h'
    rw [h] at h'
    cases h'
  · rename_i h'
    rw [h] at h'
    cases h'
    rfl

/-- Code units are skipped one after the other. -/
theorem EscapesUnits.skipText_append (h : EscapesUnits units s) (rest : List Char) :
    skipText (s ++ rest) = skipText rest := by
  induction units generalizing s with
  | nil =>
    cases h
    rfl
  | cons u units ih =>
    obtain ⟨t, t', rfl, h', hread⟩ := h.exists_readUnit
    refine (skipText_escape ?_).trans (ih h')
    change (readUnit (t ++ rest)).map (·.2) = .ok (t' ++ rest)
    rw [hread]
    rfl

/-- A character of a literal is skipped, however it is spelled. -/
theorem SpellsChar.skipText_append (h : SpellsChar c s) (rest : List Char) :
    skipText (s ++ rest) = skipText rest := by
  cases h with
  | plain hcontrol hquote hbackslash =>
    change skipText (c :: rest) = _
    rw [skipText, if_neg (by simpa [isControl] using hcontrol)]
    · exact hquote
    · exact hbackslash
  | @escaped letter _ h =>
    refine skipText_escape ?_
    have hletter : letter ≠ 'u' := by
      rintro rfl
      cases h
    change skipEscape (letter :: rest) = .ok rest
    rw [skipEscape, h]
    · rfl
    · exact hletter
  | coded h => exact h.skipText_append rest

/-- **A literal of the grammar is skipped** to its end. -/
theorem skipText_spelled (h : SpellsText content s) (rest : List Char) :
    skipText (s ++ '"' :: rest) = .ok rest := by
  induction h with
  | nil => exact skipText_quote rest
  | cons hc _ ih => rw [List.append_assoc, hc.skipText_append, ih]

end Json

end Proximity
