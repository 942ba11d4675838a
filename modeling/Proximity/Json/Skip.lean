import Proximity.Json.Numeral
import Proximity.Json.Text

/-!
# Skipping values

A value that nobody asks for is skipped token by token.  The brackets that are open are kept in a
list, innermost first, together with what may come next, so values may be nested to any depth.

## Main definitions

* `Json.Pending` : what is still open while a value is skipped.
* `Json.skipToken` : skips one token.
* `Json.skipValue` : skips a value.
-/

namespace Proximity

namespace Json

/-- The two kinds of brackets. -/
inductive Bracket where
  /-- The brackets of a list. -/
  | list
  /-- The braces of an object. -/
  | object
  deriving DecidableEq, Repr

/-- What may come next. -/
inductive Expected where
  /-- A value. -/
  | value
  /-- A value, or the end of a list without items. -/
  | firstItem
  /-- A key. -/
  | key
  /-- A key, or the end of an object without members. -/
  | firstKey
  /-- The colon behind a key. -/
  | colon
  /-- A comma, or the end of the innermost list or object. -/
  | separator
  deriving DecidableEq, Repr

/-- What is still open while a value is skipped. -/
structure Pending where
  /-- What may come next. -/
  expected : Expected
  /-- The open brackets, innermost first. -/
  brackets : List Bracket
  deriving DecidableEq, Repr

/-- Skips a value that is not bracketed, given with its first character. -/
def skipScalar (c : Char) (rest : List Char) : Except Fault (List Char) :=
  if c = '"' then skipText rest
  else if c = '-' ∨ c.isDigit then skipNumeral (c :: rest)
  else readConstant c rest

/-- Skips the first token of a value, given with its first character. -/
def skipOpening (brackets : List Bracket) (c : Char) (rest : List Char) : Reading Pending :=
  if c = '[' then .ok (⟨.firstItem, .list :: brackets⟩, rest)
  else if c = '{' then .ok (⟨.firstKey, .object :: brackets⟩, rest)
  else (skipScalar c rest).map fun rest => (⟨.separator, brackets⟩, rest)

/-- Skips a key, given with its first character. -/
def skipKey (brackets : List Bracket) (c : Char) (rest : List Char) : Reading Pending :=
  if c = '"' then (skipText rest).map fun rest => (⟨.colon, brackets⟩, rest)
  else .error .malformed

/-- Skips a comma or a closing bracket, given as a character. -/
def skipSeparator (brackets : List Bracket) (c : Char) (rest : List Char) : Reading Pending :=
  match brackets with
  | [] => .error .malformed
  | .list :: outer =>
    if c = ',' then .ok (⟨.value, .list :: outer⟩, rest)
    else if c = ']' then .ok (⟨.separator, outer⟩, rest)
    else .error .malformed
  | .object :: outer =>
    if c = ',' then .ok (⟨.key, .object :: outer⟩, rest)
    else if c = '}' then .ok (⟨.separator, outer⟩, rest)
    else .error .malformed

/-- Skips one token, given with its first character. -/
def skipFrom (pending : Pending) (c : Char) (rest : List Char) : Reading Pending :=
  match pending.expected with
  | .value => skipOpening pending.brackets c rest
  | .firstItem =>
    if c = ']' then skipSeparator pending.brackets c rest else skipOpening pending.brackets c rest
  | .key => skipKey pending.brackets c rest
  | .firstKey =>
    if c = '}' then skipSeparator pending.brackets c rest else skipKey pending.brackets c rest
  | .colon => if c = ':' then .ok (⟨.value, pending.brackets⟩, rest) else .error .malformed
  | .separator => skipSeparator pending.brackets c rest

/-- Skips one token and the white space before it. -/
def skipToken (pending : Pending) (s : List Char) : Reading Pending :=
  match dropBlanks s with
  | [] => .error .truncated
  | c :: rest => skipFrom pending c rest

/-! ### Tokens go forward -/

theorem length_skipScalar_le {c : Char} {s rest : List Char} (h : skipScalar c s = .ok rest) :
    rest.length ≤ s.length := by
  unfold skipScalar at h
  split at h
  · exact Nat.le_of_lt (length_skipText_lt h)
  · split at h
    · exact Nat.le_of_lt_succ (length_skipNumeral_lt h)
    · exact length_readConstant_le h

theorem length_skipOpening_le {brackets : List Bracket} {c : Char} {s rest : List Char}
    {next : Pending} (h : skipOpening brackets c s = .ok (next, rest)) :
    rest.length ≤ s.length := by
  unfold skipOpening at h
  split at h
  · cases h; exact Nat.le_refl _
  · split at h
    · cases h; exact Nat.le_refl _
    · cases hs : skipScalar c s with
      | error fault => rw [hs] at h; cases h
      | ok read => rw [hs] at h; cases h; exact length_skipScalar_le hs

theorem length_skipKey_le {brackets : List Bracket} {c : Char} {s rest : List Char}
    {next : Pending} (h : skipKey brackets c s = .ok (next, rest)) : rest.length ≤ s.length := by
  unfold skipKey at h
  split at h
  · cases hs : skipText s with
    | error fault => rw [hs] at h; cases h
    | ok read => rw [hs] at h; cases h; exact Nat.le_of_lt (length_skipText_lt hs)
  · cases h

theorem length_skipSeparator_le {brackets : List Bracket} {c : Char} {s rest : List Char}
    {next : Pending} (h : skipSeparator brackets c s = .ok (next, rest)) :
    rest.length ≤ s.length := by
  unfold skipSeparator at h
  split at h
  · cases h
  all_goals
    split at h
    · cases h; exact Nat.le_refl _
    · split at h <;> cases h
      exact Nat.le_refl _

theorem length_skipToken_lt {pending next : Pending} {s rest : List Char}
    (h : skipToken pending s = .ok (next, rest)) : rest.length < s.length := by
  unfold skipToken at h
  split at h
  · cases h
  · rename_i c tail hs
    have hlt : tail.length < s.length := by
      have := length_dropBlanks_le s
      rw [hs] at this
      exact this
    refine Nat.lt_of_le_of_lt ?_ hlt
    unfold skipFrom at h
    split at h
    · exact length_skipOpening_le h
    · split at h
      · exact length_skipSeparator_le h
      · exact length_skipOpening_le h
    · exact length_skipKey_le h
    · split at h
      · exact length_skipSeparator_le h
      · exact length_skipKey_le h
    · split at h <;> cases h
      exact Nat.le_refl _
    · exact length_skipSeparator_le h

/-! ### Values -/

/-- Skips tokens until nothing is open. -/
def skipPending (pending : Pending) (s : List Char) : Except Fault (List Char) :=
  if pending = ⟨.separator, []⟩ then .ok s
  else
    match h : skipToken pending s with
    | .error fault => .error fault
    | .ok (next, rest) =>
      have : rest.length < s.length := length_skipToken_lt h
      skipPending next rest
termination_by s.length

/-- Skips a value. -/
def skipValue (s : List Char) : Except Fault (List Char) := skipPending ⟨.value, []⟩ s

theorem length_skipPending_le {pending : Pending} {s rest : List Char}
    (h : skipPending pending s = .ok rest) : rest.length ≤ s.length := by
  fun_induction skipPending pending s with
  | case1 => cases h; exact Nat.le_refl _
  | case2 => cases h
  | case3 pending s _ next rest' he hlt ih =>
    have := ih h
    omega

end Json

end Proximity
