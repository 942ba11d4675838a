/-!
# Input errors

Every public operation checks its input before it computes a distance.  `InputError` lists what can
be wrong with the input, one constructor per cause, with the data that the message shows.

## Main definitions

* `InputError` : the causes.
* `InputError.kind` : whether some lengths disagree, or the input is unusable for another reason.
* `InputError.message` : the text of an error.
-/

namespace Proximity

/-- The two kinds of input errors. -/
inductive InputError.Kind where
  /-- The input cannot be processed. -/
  | invalidInput
  /-- Rows, vectors or parallel series disagree in length. -/
  | shapeMismatch
  deriving DecidableEq, Repr

/-- What is wrong with an input.  `what` is the caller's name for the faulty argument. -/
inductive InputError where
  /-- There is nothing in the input. -/
  | empty (what : String)
  /-- The first row has no components. -/
  | zeroDimensional (what : String)
  /-- A row does not have as many components as the first row. -/
  | raggedRow (what : String) (row expected actual : Nat)
  /-- A minimum distance has nothing to compare with. -/
  | tooFewObservations (rows : Nat)
  /-- There are no series at all. -/
  | noSeries
  /-- A series does not have as many rows as the first series. -/
  | unequalSeries (series expected actual : Nat)
  /-- The reference index names no row. -/
  | referenceOutOfRange (reference rows : Nat)
  /-- Two vectors to be compared differ in length. -/
  | unequalLengths (what : String) (expected actual : Nat)
  /-- The rows are longer than a table of pairs can count. -/
  | tooManyDimensions (dims : Nat)
  /-- A table of pairs cannot be had for so many rows. -/
  | tableTooLarge (rows : Nat)
  deriving DecidableEq, Repr

namespace InputError

/-- The kind of an error. -/
def kind : InputError → Kind
  | empty _ => .invalidInput
  | zeroDimensional _ => .invalidInput
  | raggedRow .. => .shapeMismatch
  | tooFewObservations _ => .invalidInput
  | noSeries => .invalidInput
  | unequalSeries .. => .shapeMismatch
  | referenceOutOfRange .. => .invalidInput
  | unequalLengths .. => .shapeMismatch
  | tooManyDimensions _ => .invalidInput
  | tableTooLarge _ => .invalidInput

/-- The text of an error about unusable input. -/
def invalid (reason : String) : String := s!"Invalid input: {reason}"

/-- The text of an error about lengths. -/
def mismatch (what : String) (expected actual : Nat) : String :=
  s!"Shape mismatch in {what}: expected {expected}, got {actual}"

/-- The text of an error. -/
def message : InputError → String
  | empty what => invalid s!"{what} is empty"
  | zeroDimensional what => invalid s!"{what} has zero-dimensional observations"
  | raggedRow what row expected actual => mismatch s!"{what} row {row}" expected actual
  | tooFewObservations rows =>
    invalid s!"minimum distance needs at least 2 observations, got {rows}"
  | noSeries => invalid "no series given"
  | unequalSeries series expected actual => mismatch s!"series {series} length" expected actual
  | referenceOutOfRange reference rows =>
    invalid s!"reference index {reference} out of range for {rows} observations"
  | unequalLengths what expected actual => mismatch what expected actual
  | tooManyDimensions dims =>
    invalid s!"{dims} dimensions exceed the pair cache limit; use the naive algorithm"
  | tableTooLarge rows =>
    invalid
      s!"pair cache for {rows} observations does not fit in memory; use the naive algorithm"

end InputError

end Proximity
