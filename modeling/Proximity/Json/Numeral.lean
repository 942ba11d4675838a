import Proximity.Json.Basic

/-!
# Numerals

A numeral is an optional minus sign, a whole part without superfluous zeros, an optional fraction
and an optional exponent.  It is read digit by digit, and what it stands for is computed from its
parts: the count that it denotes, if it denotes one, and whether it lies beyond the finite doubles.

## Main definitions

* `Json.Numeral` : the parts of a numeral.
* `Json.readNumeral` : reads a numeral; `Json.skipNumeral` skips one.
* `Json.Numeral.count?` : the 64-bit count that a numeral denotes.
* `Json.Numeral.isHuge` : the numeral lies beyond the finite doubles.
* `Json.readNumber` : reads a numeral that does not.
-/

namespace Proximity

namespace Json

/-- The parts of a numeral. -/
structure Numeral where
  /-- There is a minus sign. -/
  negative : Bool
  /-- The digits of the whole part. -/
  whole : List Char
  /-- The digits of the fraction, none if there is no fraction. -/
  fraction : List Char
  /-- The exponent, if there is one. -/
  exponent : Option Int
  deriving DecidableEq, Repr

/-! ### Reading -/

/-- Reads digits, at least one. -/
def readDigits (s : List Char) : Reading (List Char) :=
  match s with
  | [] => .error .truncated
  | c :: rest =>
    if c.isDigit then .ok (c :: rest.takeWhile Char.isDigit, rest.dropWhile Char.isDigit)
    else .error .malformed

/-- Reads the digits of a whole part: a zero stands alone. -/
def readWhole (s : List Char) : Reading (List Char) :=
  match readDigits s with
  | .error fault => .error fault
  | .ok (digits, rest) =>
    if digits.head? = some '0' ∧ digits.length ≠ 1 then .error .malformed else .ok (digits, rest)

/-- Reads the digits of a fraction, none if there is no decimal point. -/
def readFraction : List Char → Reading (List Char)
  | '.' :: rest => readDigits rest
  | s => .ok ([], s)

/-- The number that some digits denote. -/
def valueOf (digits : List Char) : Nat :=
  digits.foldl (fun n c => n * 10 + (c.toNat - '0'.toNat)) 0

/-- Takes a sign off the text. -/
def takeSign : List Char → Bool × List Char
  | '-' :: rest => (true, rest)
  | '+' :: rest => (false, rest)
  | s => (false, s)

/-- Reads an exponent, if there is one. -/
def readExponent (s : List Char) : Reading (Option Int) :=
  match s with
  | [] => .ok (none, s)
  | c :: rest =>
    if c = 'e' ∨ c = 'E' then
      let (negative, rest) := takeSign rest
      (readDigits rest).map fun read =>
        let size : Int := valueOf read.1
        (some (if negative then -size else size), read.2)
    else .ok (none, s)

/-- Reads the parts behind the sign. -/
def readUnsigned (negative : Bool) (s : List Char) : Reading Numeral :=
  match readWhole s with
  | .error fault => .error fault
  | .ok (whole, rest) =>
    match readFraction rest with
    | .error fault => .error fault
    | .ok (fraction, rest) =>
      (readExponent rest).map fun read => (⟨negative, whole, fraction, read.1⟩, read.2)

/-- Reads a numeral. -/
def readNumeral : List Char → Reading Numeral
  | '-' :: rest => readUnsigned true rest
  | s => readUnsigned false s

/-- Skips a numeral.  One that ends too early is malformed here, like any other that is not a
numeral. -/
def skipNumeral (s : List Char) : Except Fault (List Char) :=
  match readNumeral s with
  | .ok (_, rest) => .ok rest
  | .error _ => .error .malformed

/-! ### Meaning -/

namespace Numeral

/-- The count that a numeral denotes: it has digits only, and their number fits in 64 bits. -/
def count? (n : Numeral) : Option UInt64 :=
  if n.negative || !n.fraction.isEmpty || n.exponent.isSome then none
  else if valueOf n.whole < UInt64.size then some (UInt64.ofNat (valueOf n.whole))
  else none

/-- Appends digits to a significand as long as it fits in 64 bits, and returns the digits that are
left. -/
def absorb : Nat → List Char → Nat × List Char
  | significand, [] => (significand, [])
  | significand, c :: digits =>
    let next := significand * 10 + (c.toNat - '0'.toNat)
    if next < UInt64.size then absorb next digits else (significand, c :: digits)

/-- A significand of 64 bits and a power of ten, cut off after the digits that fit. -/
def scaled (n : Numeral) : Nat × Int :=
  let (significand, leftWhole) := absorb 0 n.whole
  let (significand, leftFraction) := absorb significand n.fraction
  let places : Int := (n.fraction.length - leftFraction.length : Nat)
  (significand, leftWhole.length - places + n.exponent.getD 0)

/-- The numeral lies beyond the finite doubles, when its significand and its power of ten are
multiplied as doubles.  A power of ten that is not positive makes no number larger. -/
def isHuge (n : Numeral) : Bool :=
  let (significand, power) := n.scaled
  0 < power && significand != 0 &&
    (308 < power || (Float.ofNat significand * Float.ofNat (Nat.pow 10 power.toNat)).isInf)

end Numeral

/-- Reads a numeral that does not lie beyond the finite doubles. -/
def readNumber (s : List Char) : Reading Numeral :=
  match readNumeral s with
  | .error fault => .error fault
  | .ok (n, rest) => if n.isHuge then .error .malformed else .ok (n, rest)

/-! ### Numerals go forward -/

theorem length_readDigits_lt {s digits rest : List Char} (h : readDigits s = .ok (digits, rest)) :
    rest.length < s.length := by
  unfold readDigits at h
  split at h
  · cases h
  · split at h <;> cases h
    exact Nat.lt_succ_of_le (List.dropWhile_sublist _).length_le

theorem length_readFraction_le {s digits rest : List Char}
    (h : readFraction s = .ok (digits, rest)) : rest.length ≤ s.length := by
  unfold readFraction at h
  split at h
  · exact Nat.le_succ_of_le (Nat.le_of_lt (length_readDigits_lt h))
  · cases h; exact Nat.le_refl _

theorem length_takeSign_le (s : List Char) : (takeSign s).2.length ≤ s.length := by
  unfold takeSign
  split <;> simp

theorem length_readExponent_le {s rest : List Char} {exponent : Option Int}
    (h : readExponent s = .ok (exponent, rest)) : rest.length ≤ s.length := by
  unfold readExponent at h
  split at h
  · cases h; exact Nat.le_refl _
  · rename_i c s
    split at h
    · cases hd : readDigits (takeSign s).2 with
      | error fault => simp only [hd] at h; cases h
      | ok read =>
        simp only [hd] at h
        cases h
        have := length_readDigits_lt hd
        have := length_takeSign_le s
        simp only [List.length_cons]
        omega
    · cases h; exact Nat.le_refl _

theorem length_readUnsigned_lt {negative : Bool} {s rest : List Char} {n : Numeral}
    (h : readUnsigned negative s = .ok (n, rest)) : rest.length < s.length := by
  unfold readUnsigned at h
  split at h
  · cases h
  · rename_i whole rest₁ hw
    have h₁ : rest₁.length < s.length := by
      unfold readWhole at hw
      split at hw
      · cases hw
      · rename_i hd
        split at hw <;> cases hw
        exact length_readDigits_lt hd
    split at h
    · cases h
    · rename_i fraction rest₂ hf
      have h₂ := length_readFraction_le hf
      cases he : readExponent rest₂ with
      | error fault => rw [he] at h; cases h
      | ok read =>
        rw [he] at h
        cases h
        have := length_readExponent_le he
        omega

theorem length_readNumeral_lt {s rest : List Char} {n : Numeral}
    (h : readNumeral s = .ok (n, rest)) : rest.length < s.length := by
  unfold readNumeral at h
  split at h
  · exact Nat.lt_succ_of_lt (length_readUnsigned_lt h)
  · exact length_readUnsigned_lt h

theorem length_skipNumeral_lt {s rest : List Char} (h : skipNumeral s = .ok rest) :
    rest.length < s.length := by
  unfold skipNumeral at h
  split at h
  · rename_i hn
    cases h
    exact length_readNumeral_lt hn
  · cases h

theorem length_readNumber_lt {s rest : List Char} {n : Numeral}
    (h : readNumber s = .ok (n, rest)) : rest.length < s.length := by
  unfold readNumber at h
  split at h
  · cases h
  · rename_i hn
    split at h <;> cases h
    exact length_readNumeral_lt hn

end Json

end Proximity
