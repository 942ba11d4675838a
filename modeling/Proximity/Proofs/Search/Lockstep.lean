import Proximity.Norm.Standard
import Proximity.Proofs.Search.FastNearest
import Proximity.Proofs.Search.Naive

/-!
# Searches in lockstep

A search compares, stops and stores accumulators and never looks at a finished distance.  So two
norms whose folds stop at the same places with the same accumulators take a search through the same
states: the same bounds, the same abandoned comparisons and the same table.  The runs part in the
last step, which finishes the best accumulators.

* `Norm.FoldsLike` : two norms under which every fold of a pair stops alike.
* `Norm.FoldsLike.bests_eq`, `Norm.FoldsLike.sweep_eq` : the runs of both searches are the same.
* `FinishedAlike` : two results that were finished from the same accumulators.
* `minDistances_lockstep` : **a search depends on `accumulate` alone until the last step**.
-/

namespace Proximity

variable {norm norm' : Norm} {rows : Observations}

/-! ### Folds that stop alike -/

/-- A fold does not look at finished distances. -/
theorem PartialDistance.extend_congr (h : norm.accumulate = norm'.accumulate) (bound : Float)
    (cell : PartialDistance) (xs ys : List Float) :
    cell.extend norm bound xs ys = cell.extend norm' bound xs ys := by
  induction xs generalizing cell ys with
  | nil => rfl
  | cons x xs ih =>
    cases ys with
    | nil => rfl
    | cons y ys => simp only [extend, h, ih]

namespace Norm

/-- Every fold of a pair, from wherever it stands and under every bound, stops at the same place
with the same accumulator. -/
def FoldsLike (norm norm' : Norm) : Prop :=
  ∀ (x y : List Float) (bound : Float) (cell : PartialDistance),
    cell.resume norm x y bound = cell.resume norm' x y bound

theorem foldsLike_of_accumulate_eq (h : norm.accumulate = norm'.accumulate) :
    norm.FoldsLike norm' := by
  intro x y bound cell
  exact PartialDistance.extend_congr h bound cell _ _

/-- A norm folds like the one that stops at its first NaN, because every fold does. -/
theorem foldsLike_sticky (norm : Norm) : norm.sticky.FoldsLike norm := by
  intro x y bound cell
  exact PartialDistance.resume_sticky x y

namespace FoldsLike

variable (h : norm.FoldsLike norm')
include h

/-! ### The same run of the naive search -/

theorem compare_eq : Naive.compare norm = Naive.compare norm' := by
  funext x best y
  simp only [Naive.compare, h x y]

/-- The naive search keeps the same accumulators. -/
theorem bests_eq (rows : Observations) : Naive.bests norm rows = Naive.bests norm' rows := by
  simp only [Naive.bests, Naive.nearest, h.compare_eq]

/-! ### The same run of the fast search -/

/-- One visit leaves the same table and the same best accumulator. -/
theorem visit_eq : Fast.visit norm = Fast.visit norm' := by
  funext dims x t state other
  simp only [Fast.visit, h x other.1]

/-- So does one pass, whose bound before the first visit is read from the table. -/
theorem advance_eq : Fast.advance norm = Fast.advance norm' := by
  funext rows dims state row
  simp only [Fast.advance, Fast.pass, h.visit_eq]

/-- All passes leave the same table and the same best accumulators. -/
theorem sweep_eq (rows : Observations) (dims : ℕ) :
    Fast.sweep norm rows dims = Fast.sweep norm' rows dims := by
  simp only [Fast.sweep, Fast.sweepOver, h.advance_eq]

end FoldsLike

end Norm

/-! ### The last step -/

/-- The best accumulators that a search finishes. -/
def bestsBy (norm : Norm) (algorithm : Algorithm) (rows : Observations) (dims : ℕ) : List Float :=
  match algorithm with
  | .naive => Naive.bests norm rows
  | .fast => (Fast.sweep norm rows dims).bests.toList

@[simp] theorem length_bestsBy (norm : Norm) (algorithm : Algorithm) (rows : Observations)
    (dims : ℕ) : (bestsBy norm algorithm rows dims).length = rows.length := by
  cases algorithm with
  | naive => exact Naive.length_bests norm rows
  | fast => exact Fast.length_toList_bests norm rows dims

theorem result_minDistancesBy_eq_map (norm : Norm) (algorithm : Algorithm) (rows : Observations) :
    (minDistancesBy norm algorithm rows).result = (rows.shapeBy algorithm).map fun shape =>
      finishAll norm shape.dims (bestsBy norm algorithm rows shape.dims) := by
  cases algorithm with
  | naive => rfl
  | fast => exact Fast.result_minDistances norm rows

/-- What a search returns of a table that can be searched and is within the limits of the search. -/
theorem result_minDistancesBy_eq_ok {algorithm : Algorithm} {shape : Shape}
    (hshape : rows.searchShape = .ok shape) (hfit : algorithm.Admits rows) :
    (minDistancesBy norm algorithm rows).result =
      .ok (finishAll norm shape.dims (bestsBy norm algorithm rows shape.dims)) := by
  rw [result_minDistancesBy_eq_map, Observations.shapeBy_eq hfit, hshape]
  rfl

theorem Norm.FoldsLike.bestsBy_eq (h : norm.FoldsLike norm') (algorithm : Algorithm)
    (rows : Observations) (dims : ℕ) :
    bestsBy norm algorithm rows dims = bestsBy norm' algorithm rows dims := by
  cases algorithm with
  | naive => exact h.bests_eq rows
  | fast => exact congrArg (fun sweep => sweep.bests.toList) (h.sweep_eq rows dims)

/-- Two results of a search through the same rows that part in the last step: the search refuses
the rows and both report why, or both were finished from the same accumulators, one for each row. -/
inductive FinishedAlike (norm norm' : Norm) (algorithm : Algorithm) (rows : Observations) :
    Except InputError (List Float) → Except InputError (List Float) → Prop where
  /-- Both report the same fault, or the same limit of the search. -/
  | error {e : InputError} (h : rows.shapeBy algorithm = .error e) :
    FinishedAlike norm norm' algorithm rows (.error e) (.error e)
  /-- Both have the same best accumulators. -/
  | ok {shape : Shape} {bests : List Float} (h : rows.shapeBy algorithm = .ok shape)
      (hlength : bests.length = rows.length) :
    FinishedAlike norm norm' algorithm rows (.ok (finishAll norm shape.dims bests))
      (.ok (finishAll norm' shape.dims bests))

/-- Norms that fold alike are searched in lockstep. -/
theorem Norm.FoldsLike.finishedAlike (h : norm.FoldsLike norm') (algorithm : Algorithm)
    (rows : Observations) :
    FinishedAlike norm norm' algorithm rows (minDistancesBy norm algorithm rows).result
      (minDistancesBy norm' algorithm rows).result := by
  rw [result_minDistancesBy_eq_map, result_minDistancesBy_eq_map]
  cases hshape : rows.shapeBy algorithm with
  | error e => exact .error hshape
  | ok shape =>
    simp only [Except.map, h.bestsBy_eq]
    exact .ok hshape (length_bestsBy norm' algorithm rows shape.dims)

/-- If one norm finishes by a further step after the other, so does the search. -/
theorem FinishedAlike.eq_map {algorithm : Algorithm}
    {result result' : Except InputError (List Float)}
    (h : FinishedAlike norm norm' algorithm rows result result') {shape : Shape}
    (hshape : rows.searchShape = .ok shape) {f : Float → Float}
    (hfinish : ∀ p, norm'.finish p shape.dims = f (norm.finish p shape.dims)) :
    result' = result.map (List.map f) := by
  cases h with
  | error herror => rfl
  | ok hshape' hlength =>
    obtain rfl := Except.ok.inj (hshape.symm.trans (Observations.shapeBy_eq_ok_iff.1 hshape').1)
    simp only [Except.map, finishAll, List.map_map, Function.comp_def, hfinish]

/-- **A search depends on `accumulate` alone until the last step.**  Two norms that accumulate
alike, whatever else they do, lead either search, and the one that the number of rows calls for, to
the same error, or to the same accumulators, which each of them finishes.  So the distances of the
Euclidean norm per dimension are, bit for bit, those of the Euclidean norm divided by the square
root of the number of dimensions; and there are distances if the table is within the limits of the
search. -/
theorem minDistances_lockstep :
    (∀ norm norm' : Norm, norm.accumulate = norm'.accumulate → ∀ rows : Observations,
      (∀ algorithm, FinishedAlike norm norm' algorithm rows
        (minDistancesBy norm algorithm rows).result
        (minDistancesBy norm' algorithm rows).result) ∧
      ∀ maxRows, FinishedAlike norm norm' (.select rows.length maxRows) rows
        (minDistances norm maxRows rows).result
        (minDistances norm' maxRows rows).result) ∧
    ∀ (rows : Observations) (shape : Shape), rows.searchShape = .ok shape →
      (∀ algorithm,
        (minDistancesBy .euclideanNormalised algorithm rows).result =
          (minDistancesBy .euclidean algorithm rows).result.map
            (List.map (· / (Scalar.ofCount shape.dims).sqrt)) ∧
        (algorithm.Admits rows → ∃ distances,
          (minDistancesBy .euclidean algorithm rows).result = .ok distances)) ∧
      ∀ maxRows,
        (minDistances .euclideanNormalised maxRows rows).result =
          (minDistances .euclidean maxRows rows).result.map
            (List.map (· / (Scalar.ofCount shape.dims).sqrt)) ∧
        ((Algorithm.select rows.length maxRows).Admits rows → ∃ distances,
          (minDistances .euclidean maxRows rows).result = .ok distances) := by
  constructor
  · intro norm norm' h rows
    have halike := (Norm.foldsLike_of_accumulate_eq h).finishedAlike
    exact ⟨fun algorithm => halike algorithm rows,
      fun maxRows => halike (.select rows.length maxRows) rows⟩
  · intro rows shape hshape
    have hfolds : Norm.euclidean.FoldsLike .euclideanNormalised :=
      Norm.foldsLike_of_accumulate_eq rfl
    have hmap : ∀ algorithm,
        (minDistancesBy .euclideanNormalised algorithm rows).result =
          (minDistancesBy .euclidean algorithm rows).result.map
            (List.map (· / (Scalar.ofCount shape.dims).sqrt)) :=
      fun algorithm => (hfolds.finishedAlike algorithm rows).eq_map hshape fun _ => rfl
    have hok : ∀ algorithm : Algorithm, algorithm.Admits rows → ∃ distances,
        (minDistancesBy .euclidean algorithm rows).result = .ok distances :=
      fun _ hfit => ⟨_, result_minDistancesBy_eq_ok hshape hfit⟩
    exact ⟨fun algorithm => ⟨hmap algorithm, hok algorithm⟩,
      fun maxRows => ⟨hmap (.select rows.length maxRows), hok (.select rows.length maxRows)⟩⟩

/-- The sum and the mean of absolute differences, and the Euclidean norms, on three rows with a NaN
and an infinity. -/
theorem minDistances_lockstep_means :
    Norm.taxicab.accumulate = Norm.meanAbsolute.accumulate ∧
    FinishedAlike .taxicab .meanAbsolute .fast [[0, 4], [3, 1], [0 / 0, 1 / 0]]
      (Fast.minDistances .taxicab [[0, 4], [3, 1], [0 / 0, 1 / 0]]).result
      (Fast.minDistances .meanAbsolute [[0, 4], [3, 1], [0 / 0, 1 / 0]]).result ∧
    Observations.searchShape [[0, 4], [3, 1], [0 / 0, 1 / 0]] = .ok ⟨3, 2⟩ ∧
    (Algorithm.select 3 3).Admits [[0, 4], [3, 1], [0 / 0, 1 / 0]] ∧
    ∃ distances : List Float,
      (minDistances .euclidean 3 [[0, 4], [3, 1], [0 / 0, 1 / 0]]).result = .ok distances ∧
      (minDistances .euclideanNormalised 3 [[0, 4], [3, 1], [0 / 0, 1 / 0]]).result =
        .ok (distances.map (· / (Scalar.ofCount 2).sqrt)) := by
  have hshape : Observations.searchShape [[0, 4], [3, 1], [0 / 0, 1 / 0]] = .ok ⟨3, 2⟩ := by decide
  have hfit : (Algorithm.select 3 3).Admits [[0, 4], [3, 1], [0 / 0, 1 / 0]] := by decide
  have haccumulate : Norm.taxicab.accumulate = Norm.meanAbsolute.accumulate := rfl
  obtain ⟨halike, hnormalised⟩ := minDistances_lockstep
  obtain ⟨hmap, hok⟩ := (hnormalised _ _ hshape).2 3
  obtain ⟨distances, hdistances⟩ := hok hfit
  rw [hdistances] at hmap
  exact ⟨haccumulate, (halike _ _ haccumulate _).1 .fast, hshape, hfit, distances, hdistances, hmap⟩

end Proximity
