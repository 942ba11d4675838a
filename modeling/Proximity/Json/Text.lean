import Proximity.Json.Basic

/-!
# String literals

A string literal stands between quotation marks.  A backslash begins an escape: one of eight
characters for a fixed character, or `u` and four hexadecimal digits for a UTF-16 code unit.
Control characters must be escaped.

A literal is either read or skipped.  Reading decodes it, so a code unit that is half of a surrogate
pair must have its other half right after it.  Skipping checks the escapes one by one and does not
look at pairs.

## Main definitions

* `Json.readText` : reads a literal, from behind its opening quotation mark.
* `Json.skipText` : skips a literal, from behind its opening quotation mark.
-/

namespace Proximity

namespace Json

/-! ### Escapes -/

/-- The value of a hexadecimal digit in either case. -/
def hexValue? (c : Char) : Option Nat :=
  if '0' ≤ c ∧ c ≤ '9' then some (c.toNat - '0'.toNat)
  else if 'a' ≤ c ∧ c ≤ 'f' then some (c.toNat - 'a'.toNat + 10)
  else if 'A' ≤ c ∧ c ≤ 'F' then some (c.toNat - 'A'.toNat + 10)
  else none

/-- The number of bytes of a text in UTF-8. -/
def utf8Length (s : List Char) : Nat := s.foldl (fun n c => n + c.utf8Size) 0

/-- Reads the four hexadecimal digits of a code unit.  They take four bytes, so a text with fewer
bytes left ends too early, whatever they are. -/
def readUnit : List Char → Reading Nat
  | a :: b :: c :: d :: rest =>
    match hexValue? a, hexValue? b, hexValue? c, hexValue? d with
    | some a, some b, some c, some d => .ok (((a * 16 + b) * 16 + c) * 16 + d, rest)
    | _, _, _, _ => .error .malformed
  | s => .error (if utf8Length s < 4 then .truncated else .malformed)

/-- The first half of a surrogate pair. -/
def isHighSurrogate (unit : Nat) : Bool := 0xD800 ≤ unit && unit < 0xDC00

/-- The second half of a surrogate pair. -/
def isLowSurrogate (unit : Nat) : Bool := 0xDC00 ≤ unit && unit < 0xE000

/-- The character of a surrogate pair. -/
def pairedChar (high low : Nat) : Char :=
  Char.ofNat ((high - 0xD800) * 0x400 + (low - 0xDC00) + 0x10000)

/-- Reads the second half of a surrogate pair, as an escape. -/
def readLowSurrogate (high : Nat) : List Char → Reading Char
  | [] => .error .truncated
  | ['\\'] => .error .truncated
  | '\\' :: 'u' :: rest =>
    match readUnit rest with
    | .error fault => .error fault
    | .ok (low, rest) =>
      if isLowSurrogate low then .ok (pairedChar high low, rest) else .error .malformed
  | _ => .error .malformed

/-- Reads a character that is written by its code units, from behind the `u`. -/
def readCoded (s : List Char) : Reading Char :=
  match readUnit s with
  | .error fault => .error fault
  | .ok (unit, rest) =>
    if isLowSurrogate unit then .error .malformed
    else if isHighSurrogate unit then readLowSurrogate unit rest
    else .ok (Char.ofNat unit, rest)

/-- The character that a letter stands for behind a backslash. -/
def escaped? : Char → Option Char
  | '"' => some '"'
  | '\\' => some '\\'
  | '/' => some '/'
  | 'b' => some '\x08'
  | 'f' => some '\x0c'
  | 'n' => some '\n'
  | 'r' => some '\r'
  | 't' => some '\t'
  | _ => none

/-- Reads an escape, from behind its backslash. -/
def readEscape : List Char → Reading Char
  | [] => .error .truncated
  | 'u' :: rest => readCoded rest
  | c :: rest =>
    match escaped? c with
    | some e => .ok (e, rest)
    | none => .error .malformed

/-- Skips an escape, from behind its backslash. -/
def skipEscape : List Char → Except Fault (List Char)
  | [] => .error .truncated
  | 'u' :: rest => (readUnit rest).map (·.2)
  | c :: rest => if (escaped? c).isSome then .ok rest else .error .malformed

/-! ### Escapes go forward -/

theorem length_readUnit_lt {s rest : List Char} {unit : Nat} (h : readUnit s = .ok (unit, rest)) :
    rest.length < s.length := by
  unfold readUnit at h
  split at h
  · split at h <;> cases h
    simp only [List.length_cons]
    omega
  · cases h

theorem length_readLowSurrogate_lt {high : Nat} {s rest : List Char} {c : Char}
    (h : readLowSurrogate high s = .ok (c, rest)) : rest.length < s.length := by
  unfold readLowSurrogate at h
  split at h
  · cases h
  · cases h
  · split at h
    · cases h
    · rename_i hu
      have := length_readUnit_lt hu
      split at h
      · simp only [Except.ok.injEq, Prod.mk.injEq] at h
        simp only [List.length_cons, ← h.2]
        omega
      · cases h
  · cases h

theorem length_readEscape_lt {s rest : List Char} {c : Char} (h : readEscape s = .ok (c, rest)) :
    rest.length < s.length := by
  unfold readEscape at h
  split at h
  · cases h
  · unfold readCoded at h
    split at h
    · cases h
    · rename_i hu
      have := length_readUnit_lt hu
      simp only [List.length_cons]
      split at h
      · cases h
      · split at h
        · have := length_readLowSurrogate_lt h
          omega
        · cases h
          omega
  · split at h <;> cases h
    exact Nat.lt_succ_self _

theorem length_skipEscape_lt {s rest : List Char} (h : skipEscape s = .ok rest) :
    rest.length < s.length := by
  unfold skipEscape at h
  split at h
  · cases h
  · rename_i s
    cases hu : readUnit s with
    | error fault => rw [hu] at h; cases h
    | ok read =>
      rw [hu] at h
      cases h
      exact Nat.lt_succ_of_lt (length_readUnit_lt hu)
  · split at h <;> cases h
    exact Nat.lt_succ_self _

/-! ### Literals -/

/-- The characters that must be escaped. -/
def isControl (c : Char) : Bool := c < ' '

/-- Reads a literal, from behind its opening quotation mark. -/
def readText : List Char → Reading (List Char)
  | [] => .error .truncated
  | '"' :: rest => .ok ([], rest)
  | '\\' :: rest =>
    match h : readEscape rest with
    | .error fault => .error fault
    | .ok (c, rest') =>
      have : rest'.length < rest.length + 1 := Nat.lt_succ_of_lt (length_readEscape_lt h)
      (readText rest').map fun read => (c :: read.1, read.2)
  | c :: rest =>
    if isControl c then .error .malformed
    else (readText rest).map fun read => (c :: read.1, read.2)
termination_by s => s.length

/-- Skips a literal, from behind its opening quotation mark. -/
def skipText : List Char → Except Fault (List Char)
  | [] => .error .truncated
  | '"' :: rest => .ok rest
  | '\\' :: rest =>
    match h : skipEscape rest with
    | .error fault => .error fault
    | .ok rest' =>
      have : rest'.length < rest.length + 1 := Nat.lt_succ_of_lt (length_skipEscape_lt h)
      skipText rest'
  | c :: rest => if isControl c then .error .malformed else skipText rest
termination_by s => s.length

theorem length_readText_lt {s text rest : List Char} (h : readText s = .ok (text, rest)) :
    rest.length < s.length := by
  fun_induction readText s generalizing text with
  | case1 => cases h
  | case2 => cases h; exact Nat.lt_succ_self _
  | case3 => cases h
  | case4 s c rest' he hlt ih =>
    cases hr : readText rest' with
    | error fault => rw [hr] at h; cases h
    | ok read =>
      rw [hr] at h
      cases h
      have := ih hr
      simp only [List.length_cons]
      omega
  | case5 => cases h
  | case6 c s _ _ _ ih =>
    cases hr : readText s with
    | error fault => rw [hr] at h; cases h
    | ok read =>
      rw [hr] at h
      cases h
      exact Nat.lt_succ_of_lt (ih hr)

theorem length_skipText_lt {s rest : List Char} (h : skipText s = .ok rest) :
    rest.length < s.length := by
  fun_induction skipText s with
  | case1 => cases h
  | case2 => cases h; exact Nat.lt_succ_self _
  | case3 => cases h
  | case4 s rest' he hlt ih =>
    have := ih h
    simp only [List.length_cons]
    omega
  | case5 => cases h
  | case6 c s _ _ _ ih => exact Nat.lt_succ_of_lt (ih h)

end Json

end Proximity
