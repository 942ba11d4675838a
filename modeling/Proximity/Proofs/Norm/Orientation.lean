import Proximity.Proofs.PartialDistance

/-!
# The orientation of differences

A difference may be taken from either of its two operands.  The standard norms do not look at which
one it is, and they do not look at it index by index: the orientation may be chosen anew for every
component.  Exchanging two whole rows, and going on with a pair from its other row, are two of these
choices.

* `orientedDifferences` : the differences of two rows, with the orientation of each one chosen.
* `Norm.SwapEven.fold_oriented` : the choices do not matter.
* `NormMode.distance_comm` : the two operands of a distance may be exchanged.
* `NormMode.orientation_free` : **the standard norms do not depend on any orientation**.
-/

namespace Proximity

variable {x y : List Float}

/-- The differences of two rows.  The choice tells at which indices the operands are exchanged. -/
def orientedDifferences (exchanged : ℕ → Bool) (x y : List Float) : List Float :=
  (x.zip y).mapIdx fun i operands =>
    if exchanged i then operands.2 - operands.1 else operands.1 - operands.2

theorem forall₂_reoriented_oriented (exchanged : ℕ → Bool) (x y : List Float) :
    List.Forall₂ Norm.Reoriented (differences x y) (orientedDifferences exchanged x y) := by
  -- the choices for the tails are those from index one on
  induction x generalizing y exchanged with
  | nil => cases y <;> exact .nil
  | cons a x ih =>
    cases y with
    | nil => exact .nil
    | cons b y =>
      have htail : orientedDifferences exchanged (a :: x) (b :: y) =
          (if exchanged 0 then b - a else a - b) ::
            orientedDifferences (fun i => exchanged (i + 1)) x y := by
        rw [orientedDifferences, List.zip_cons_cons, List.mapIdx_cons]
        rfl
      rw [htail]
      refine .cons ⟨a, b, rfl, ?_⟩ (ih _ y)
      cases exchanged 0 with
      | false => exact .inl rfl
      | true => exact .inr rfl

namespace Norm

variable {norm : Norm}

/-- For a norm that does not look at the order of operands, every orientation is as good as any
other. -/
theorem SwapEven.fold_oriented (h : norm.SwapEven) (exchanged : ℕ → Bool) (x y : List Float) :
    norm.fold (orientedDifferences exchanged x y) = norm.accumulated x y :=
  (h.foldl_congr (forall₂_reoriented_oriented exchanged x y) 0).symm

/-- A fold over the first `k` differences from one side may go on from the other side. -/
theorem SwapEven.foldl_drop (h : norm.SwapEven) (k : ℕ) (x y : List Float) :
    ((differences y x).drop k).foldl norm.accumulate (norm.fold ((differences x y).take k)) =
      norm.accumulated x y := by
  have hmixed : norm.fold (mixedDifferences k x y) = norm.fold (differences x y) :=
    h.fold_mixed k x y
  rwa [mixedDifferences, fold, List.foldl_append] at hmixed

end Norm

namespace NormMode

variable (mode : NormMode)

/-- The two operands of a distance may be exchanged. -/
theorem distance_comm (h : x.length = y.length) :
    mode.norm.distance x y = mode.norm.distance y x := by
  have hfold : mode.norm.accumulated x y = mode.norm.accumulated y x :=
    mode.swapEven_norm.fold_comm x y
  rw [Norm.distance, Norm.distance, hfold, h]

/-- **The standard norms do not depend on any orientation.**  Two equally long rows have one
accumulator, however the operands of each difference are ordered, and one distance.  The accumulator
does not change either if a fold is begun from one row and goes on from the other one, at any
component; so a partial distance may be resumed from either row, wherever it stands and under any
bound. -/
theorem orientation_free (h : x.length = y.length) :
    (∀ exchanged : ℕ → Bool,
      mode.norm.fold (orientedDifferences exchanged x y) = mode.norm.accumulated x y) ∧
    mode.norm.distance x y = mode.norm.distance y x ∧
    (∀ k, ((differences y x).drop k).foldl mode.norm.accumulate
        (mode.norm.fold ((differences x y).take k)) = mode.norm.accumulated x y) ∧
    ∀ (cell : PartialDistance) (bound : Float),
      cell.resume mode.norm y x bound = cell.resume mode.norm x y bound := by
  have heven : mode.norm.SwapEven := mode.swapEven_norm
  exact ⟨fun exchanged => heven.fold_oriented exchanged x y, mode.distance_comm h,
    fun k => heven.foldl_drop k x y, fun cell bound => PartialDistance.resume_comm heven y x⟩

/-- The maximum norm of two rows with equal components, zeros of both signs and an infinity, with
the operands exchanged at every other index; and a pair of the Euclidean norm that is continued from
its other row. -/
theorem orientation_free_alternating :
    Norm.maximum.fold (orientedDifferences (fun i => i % 2 == 1) [7, 0, 1, Scalar.infinity]
      [7, -0, 4, 2]) = Scalar.infinity ∧
    Norm.maximum.distance [7, 0, 1, Scalar.infinity] [7, -0, 4, 2] =
      Norm.maximum.distance [7, -0, 4, 2] [7, 0, 1, Scalar.infinity] ∧
    PartialDistance.resume Norm.euclidean [0, 4, 2] [3, 0, 2] 30 ⟨9, 1⟩ = ⟨25, 3⟩ := by
  obtain ⟨horiented, hdistance, -, -⟩ :=
    orientation_free .maxNorm (x := [7, 0, 1, Scalar.infinity]) (y := [7, -0, 4, 2]) (by decide)
  obtain ⟨-, -, -, hresume⟩ :=
    orientation_free .euclidean (x := [3, 0, 2]) (y := [0, 4, 2]) (by decide)
  exact ⟨(horiented _).trans (by decide +kernel), hdistance,
    (hresume ⟨9, 1⟩ 30).trans (by decide +kernel)⟩

end NormMode

end Proximity
