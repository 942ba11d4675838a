/-!
# Reading JSON

A reader takes something off the front of a text, given as a list of characters, and returns what
it has read together with the rest of the text.  It fails at the first character that cannot
continue what is read, or at the end of a text that stops too early; a value that is complete but
of another kind than the one that is asked for is a failure of its own.

## Main definitions

* `Json.Fault` : why a text cannot be read.
* `Json.Reading` : what a reader returns.
* `Json.dropBlanks` : the text without the white space in front.
* `Json.readConstant` : reads `null`, `true` or `false`.
-/

namespace Proximity

namespace Json

/-- Why a text cannot be read. -/
inductive Fault where
  /-- The text ends too early. -/
  | truncated
  /-- A character cannot stand where it stands. -/
  | malformed
  /-- A value is not of the kind or in the range that is asked for. -/
  | mismatch
  deriving DecidableEq, Repr

/-- What a reader returns: a value and the rest of the text. -/
abbrev Reading (α : Type) := Except Fault (α × List Char)

/-- The characters that may stand between two tokens. -/
def isBlank (c : Char) : Bool := c == ' ' || c == '\n' || c == '\t' || c == '\r'

/-- The text without the white space in front. -/
def dropBlanks (s : List Char) : List Char := s.dropWhile isBlank

/-- Takes a fixed word off the text. -/
def readWord : List Char → List Char → Except Fault (List Char)
  | [], s => .ok s
  | _ :: _, [] => .error .truncated
  | w :: word, c :: s => if c = w then readWord word s else .error .malformed

/-- The letters behind the first letter of `null`, `true` and `false`. -/
def constantTail? : Char → Option (List Char)
  | 'n' => some ['u', 'l', 'l']
  | 't' => some ['r', 'u', 'e']
  | 'f' => some ['a', 'l', 's', 'e']
  | _ => none

/-- Takes `null`, `true` or `false` off the text, given its first letter. -/
def readConstant (c : Char) (rest : List Char) : Except Fault (List Char) :=
  match constantTail? c with
  | some tail => readWord tail rest
  | none => .error .malformed

/-- The reader's fault, or a mismatch if it succeeds. -/
def faultOf {α : Type} : Except Fault α → Fault
  | .error fault => fault
  | .ok _ => .mismatch

/-! ### Readers go forward -/

theorem length_dropBlanks_le (s : List Char) : (dropBlanks s).length ≤ s.length :=
  (List.dropWhile_sublist isBlank).length_le

theorem length_readWord_le {word s rest : List Char} (h : readWord word s = .ok rest) :
    rest.length ≤ s.length := by
  induction word generalizing s with
  | nil => cases h; exact Nat.le_refl _
  | cons w word ih =>
    cases s with
    | nil => cases h
    | cons c s =>
      simp only [readWord] at h
      split at h
      · exact Nat.le_succ_of_le (ih h)
      · cases h

theorem length_readConstant_le {c : Char} {s rest : List Char} (h : readConstant c s = .ok rest) :
    rest.length ≤ s.length := by
  unfold readConstant at h
  split at h
  · exact length_readWord_le h
  · cases h

end Json

end Proximity
