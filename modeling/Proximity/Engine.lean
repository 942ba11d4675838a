import Proximity.Config.Basic
import Proximity.Norm.Standard
import Proximity.NormMatrix.Build
import Proximity.Search.MinDistances

/-!
# Engines

An engine computes distances under the configuration that it was made with.  Its operations are
given as functions, and once more as data: a `Call` names an operation with its operands, so that a
sequence of calls is a list.

## Main definitions

* `Engine` : an engine.
* `Engine.distance`, `Engine.jointDistance`, `Engine.minDistances`, `Engine.minDistancesBy`,
  `Engine.pairMatrix`, `Engine.tripleMatrix` : the operations under the configured norm.
* `Call`, `Answer`, `Engine.answer` : the operations as data.
-/

namespace Proximity

/-- An engine with its configuration. -/
structure Engine where
  /-- The configuration that the engine was made with. -/
  config : Config
  deriving DecidableEq, Repr

namespace Engine

variable (engine : Engine)

/-- The norm of the engine. -/
def norm : Norm := engine.config.norm.norm

/-- The distance of two vectors. -/
def distance (a b : List Float) : Except InputError Float :=
  match checkOperands "norm operands" a b with
  | .error e => .error e
  | .ok _ => .ok (engine.config.norm.distance a b)

/-- The distance of two points `(x₁, y₁)` and `(x₂, y₂)` of a product space: the larger of the
distances in the two spaces. -/
def jointDistance (x₁ y₁ x₂ y₂ : List Float) : Except InputError Float :=
  match checkOperands "joint norm x operands" x₁ x₂ with
  | .error e => .error e
  | .ok _ =>
    match checkOperands "joint norm y operands" y₁ y₂ with
    | .error e => .error e
    | .ok _ =>
      let mode := engine.config.norm
      .ok (Scalar.larger (mode.distance x₁ x₂) (mode.distance y₁ y₂))

/-- The distance from every row to the nearest other row, by the search that the configuration
chooses. -/
def minDistances (rows : Observations) : Logged (Except InputError (List Float)) :=
  Proximity.minDistances engine.norm engine.config.maxRowsForFast rows

/-- The distance from every row to the nearest other row, by the given search. -/
def minDistancesBy (algorithm : Algorithm) (rows : Observations) :
    Logged (Except InputError (List Float)) :=
  Proximity.minDistancesBy engine.norm algorithm rows

/-- The distances from a reference row in two parallel series. -/
def pairMatrix (a b : Observations) (reference : Nat) : Except InputError NormMatrix :=
  Proximity.pairMatrix engine.norm a b reference

/-- The distances from a reference row in three parallel series. -/
def tripleMatrix (a b c : Observations) (reference : Nat) : Except InputError NormMatrix :=
  Proximity.tripleMatrix engine.norm a b c reference

end Engine

/-! ### Operations as data -/

/-- An operation of an engine with its operands. -/
inductive Call where
  /-- The distance of two vectors. -/
  | distance (a b : List Float)
  /-- The distance of two points of a product space. -/
  | jointDistance (x₁ y₁ x₂ y₂ : List Float)
  /-- The minimum distances by the configured search. -/
  | minDistances (rows : Observations)
  /-- The minimum distances by a given search. -/
  | minDistancesBy (algorithm : Algorithm) (rows : Observations)
  /-- The distances from a reference row in two series. -/
  | pairMatrix (a b : Observations) (reference : Nat)
  /-- The distances from a reference row in three series. -/
  | tripleMatrix (a b c : Observations) (reference : Nat)
  /-- The differences from a reference row, per variable. -/
  | variableMatrix (rows : Observations) (reference : Nat)

/-- The value of a call. -/
inductive Answer where
  /-- One distance. -/
  | distance (value : Float)
  /-- One distance per row. -/
  | distances (values : List Float)
  /-- The distances from a reference row. -/
  | matrix (matrix : NormMatrix)

/-- What an engine answers to a call. -/
def Engine.answer (engine : Engine) : Call → Logged (Except InputError Answer)
  | .distance a b => .silent ((engine.distance a b).map .distance)
  | .jointDistance x₁ y₁ x₂ y₂ => .silent ((engine.jointDistance x₁ y₁ x₂ y₂).map .distance)
  | .minDistances rows => (engine.minDistances rows).map (Except.map .distances)
  | .minDistancesBy algorithm rows =>
    (engine.minDistancesBy algorithm rows).map (Except.map .distances)
  | .pairMatrix a b reference => .silent ((engine.pairMatrix a b reference).map .matrix)
  | .tripleMatrix a b c reference => .silent ((engine.tripleMatrix a b c reference).map .matrix)
  | .variableMatrix rows reference => .silent ((variableMatrix rows reference).map .matrix)

end Proximity
