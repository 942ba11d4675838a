/-!
# Norm modes

A norm mode names one of the three standard norms.  Each mode has a canonical token, and a mode is
chosen from a token leniently: ASCII letters count the same in either case, and a token that names
no mode chooses the Euclidean norm.
-/

namespace Proximity

/-- The standard norms, by name. -/
inductive NormMode where
  /-- The square root of the sum of squares. -/
  | euclidean
  /-- The Euclidean norm divided by the square root of the number of dimensions. -/
  | euclideanNormalised
  /-- The largest absolute component. -/
  | maxNorm
  deriving DecidableEq, Repr, Inhabited

namespace NormMode

/-- Every mode once. -/
def all : List NormMode := [.euclidean, .euclideanNormalised, .maxNorm]

/-- The canonical token of a mode. -/
def token : NormMode → String
  | .euclidean => "EUCLIDEAN"
  | .euclideanNormalised => "EUCLIDEAN_NORMALISED"
  | .maxNorm => "MAX_NORM"

/-- Two texts agree up to the case of their ASCII letters. -/
def sameName (a b : String) : Bool := a.toList.map Char.toUpper == b.toList.map Char.toUpper

/-- The mode whose token is `name`, up to case; the Euclidean norm if there is none. -/
def ofName (name : String) : NormMode :=
  (all.find? fun mode => sameName mode.token name).getD .euclidean

@[simp] theorem ofName_token (mode : NormMode) : ofName mode.token = mode := by
  cases mode <;> decide

end NormMode

/-- A norm as it is asked for: by its mode or by a token. -/
inductive NormChoice where
  /-- The mode itself. -/
  | mode (chosen : NormMode)
  /-- A token, which need not name a mode. -/
  | token (name : String)
  deriving DecidableEq, Repr

/-- The mode that is asked for. -/
def NormChoice.toMode : NormChoice → NormMode
  | .mode chosen => chosen
  | .token name => .ofName name

instance : Coe NormMode NormChoice := ⟨.mode⟩

instance : Coe String NormChoice := ⟨.token⟩

end Proximity
