import Mathlib.Order.Bounds.Defs
import Proximity.Norm.Standard
import Proximity.Proofs.Guarded.Basic
import Proximity.Proofs.PartialDistance

/-!
# Where a fold stops

A fold goes on while its accumulator is below the bound and components are left.  So it stops at the
first number of components at which one of the two fails.  "Not below the bound" is not "at least
the bound": a NaN is neither, so a fold also stops at a NaN, and at once under a bound that is a
NaN.

* `PartialDistance.valueAt` : the accumulators that a fold comes through.
* `PartialDistance.resume_stop` : what a fold holds where it stops.
* `PartialDistance.isLeast_progress_resume` : it stops at the first number of components at which it
  is complete or not below the bound.
* `PartialDistance.not_valueAt_length_lt` : if accumulators only go up, a fold that is abandoned
  would not have come below its bound.
* `PartialDistance.resume_stops_first` : **where a fold stops, and what it leaves out**.
-/

namespace Proximity

namespace PartialDistance

/-- The accumulator of a fold that has gone on from a cell until `k` components are folded. -/
def valueAt (norm : Norm) (x y : List Float) (cell : PartialDistance) (k : ℕ) : Float :=
  (((differences x y).drop cell.progress).take (k - cell.progress)).foldl norm.accumulate cell.value

variable {norm : Norm} {x y : List Float} {cell : PartialDistance} {bound : Float} {k : ℕ}

theorem valueAt_add (i : ℕ) :
    cell.valueAt norm x y (cell.progress + i) =
      (((differences x y).drop cell.progress).take i).foldl norm.accumulate cell.value := by
  rw [valueAt, Nat.add_sub_cancel_left]

/-- The components that are left lead from any accumulator to the complete one. -/
theorem valueAt_length (hlen : x.length = y.length) (hk : cell.progress ≤ k) :
    cell.valueAt norm x y x.length =
      ((differences x y).drop k).foldl norm.accumulate (cell.valueAt norm x y k) := by
  have hall : ((differences x y).drop cell.progress).take (x.length - cell.progress) =
      (differences x y).drop cell.progress := by
    refine List.take_of_length_le ?_
    rw [List.length_drop, length_differences, ← hlen, Nat.min_self]
  have hrest : (differences x y).drop k =
      ((differences x y).drop cell.progress).drop (k - cell.progress) := by
    rw [List.drop_drop, Nat.add_sub_cancel' hk]
  rw [valueAt, valueAt, hall, hrest, ← List.foldl_append, List.take_append_drop]

/-- What a fold holds where it stops: one of its accumulators, and all earlier ones are below the
bound. -/
theorem resume_stop (norm : Norm) (hlen : x.length = y.length) (hcell : cell.progress ≤ x.length)
    (bound : Float) :
    (cell.resume norm x y bound).progress ≤ x.length ∧
      (cell.resume norm x y bound).value =
        cell.valueAt norm x y (cell.resume norm x y bound).progress ∧
      (∀ k, cell.progress ≤ k → k < (cell.resume norm x y bound).progress →
        cell.valueAt norm x y k < bound) ∧
      ((cell.resume norm x y bound).progress = x.length ∨
        ¬ (cell.resume norm x y bound).value < bound) := by
  obtain ⟨n, hn, heq, hbelow, hstop⟩ :=
    exists_extend_eq norm bound cell (x.drop cell.progress) (y.drop cell.progress)
  rw [differences_drop] at hn heq hbelow hstop
  rw [List.length_drop, length_differences, ← hlen, Nat.min_self] at hn hstop
  have hprogress : (cell.resume norm x y bound).progress = cell.progress + n :=
    congrArg progress heq
  refine ⟨by omega, ?_, fun k hk hlt => ?_, hstop.imp_left fun hn => by omega⟩
  · rw [hprogress, valueAt_add]
    exact congrArg value heq
  · obtain ⟨i, rfl⟩ := Nat.exists_eq_add_of_le hk
    rw [valueAt_add]
    exact hbelow i (by omega)

/-- **A fold stops at the first number of components** at which it is complete or not below the
bound. -/
theorem isLeast_progress_resume (norm : Norm) (hlen : x.length = y.length)
    (hcell : cell.progress ≤ x.length) (bound : Float) :
    IsLeast {k | cell.progress ≤ k ∧ (k = x.length ∨ ¬ cell.valueAt norm x y k < bound)}
      (cell.resume norm x y bound).progress := by
  obtain ⟨hle, hvalue, hbelow, hstop⟩ := resume_stop norm hlen hcell bound
  refine ⟨⟨progress_le_resume x y, hvalue ▸ hstop⟩, ?_⟩
  rintro k ⟨hk, rfl | hnot⟩
  · exact hle
  · -- an earlier accumulator would be below the bound
    by_contra hlt
    exact hnot (hbelow k hk (Nat.lt_of_not_le hlt))

/-- **An abandoned fold would not have come below its bound**, for a norm whose accumulators only go
up. -/
theorem not_valueAt_length_lt (hn : norm.Ascending) (hlen : x.length = y.length)
    (hvalue : 0 ≤ cell.value ∨ cell.value.isNaN = true)
    (hleft : (cell.resume norm x y bound).progress < x.length) :
    ¬ cell.valueAt norm x y x.length < bound := by
  have hgone : cell.progress ≤ (cell.resume norm x y bound).progress := progress_le_resume x y
  have hcell : cell.progress ≤ x.length := Nat.le_of_lt (Nat.lt_of_le_of_lt hgone hleft)
  obtain ⟨-, hstopped, -, hstop⟩ := resume_stop norm hlen hcell bound
  have hstart : ¬ cell.value < 0 := by
    intro hlt
    rcases hvalue with hle | hnan
    · exact Scalar.lt_irrefl 0 (Scalar.lt_of_le_of_lt hle hlt)
    · rw [Scalar.isNaN_left_of_lt hlt] at hnan
      cases hnan
  have hnonneg : ¬ (cell.resume norm x y bound).value < 0 := by
    rw [hstopped]
    exact hn.not_foldl_lt _ hstart hstart
  have hnot : ¬ (cell.resume norm x y bound).value < bound :=
    hstop.resolve_left (Nat.ne_of_lt hleft)
  rw [valueAt_length hlen hgone, ← hstopped]
  exact hn.not_foldl_lt _ hnonneg hnot

/-- **Where a fold stops, and what it leaves out.**  For any norm, any two rows of one length, any
cell of them and any bound, a NaN included, the loop over the components that are left ends within
their range.  It stops at the first number of components at which the fold is complete or its
accumulator is not below the bound, and it holds the accumulator of that many components.  All
earlier accumulators are below the bound, so the cell is complete or not below the bound, and below
the bound it is complete.  A larger bound lets the fold go at least as far.  If the accumulators of
the norm only go up and the cell is not negative, a fold that is abandoned would not have come below
its bound. -/
theorem resume_stops_first (norm : Norm) {x y : List Float} (hlen : x.length = y.length)
    {cell : PartialDistance} (hcell : cell.progress ≤ x.length) :
    (∀ bound : Float,
      cell.resume? norm x y bound = some (cell.resume norm x y bound) ∧
      IsLeast {k | cell.progress ≤ k ∧ (k = x.length ∨ ¬ cell.valueAt norm x y k < bound)}
        (cell.resume norm x y bound).progress ∧
      (cell.resume norm x y bound).value =
        cell.valueAt norm x y (cell.resume norm x y bound).progress ∧
      (∀ k, cell.progress ≤ k → k < (cell.resume norm x y bound).progress →
        cell.valueAt norm x y k < bound) ∧
      ((cell.resume norm x y bound).progress = x.length ∨
        ¬ (cell.resume norm x y bound).value < bound) ∧
      ((cell.resume norm x y bound).value < bound →
        (cell.resume norm x y bound).progress = x.length)) ∧
    (∀ bound bound' : Float, bound ≤ bound' →
      (cell.resume norm x y bound).progress ≤ (cell.resume norm x y bound').progress) ∧
    (norm.Inflationary → norm.NaNAbsorbing → 0 ≤ cell.value ∨ cell.value.isNaN = true →
      ∀ bound : Float, (cell.resume norm x y bound).progress < x.length →
        ¬ cell.valueAt norm x y x.length < bound) := by
  refine ⟨fun bound => ?_, fun _ _ hle => progress_resume_le hle x y,
    fun hinflationary habsorbing hvalue _ hleft =>
      not_valueAt_length_lt ⟨hinflationary, habsorbing⟩ hlen hvalue hleft⟩
  obtain ⟨-, hvalue, hbelow, hstop⟩ := resume_stop norm hlen hcell bound
  exact ⟨resume?_eq_some hlen, isLeast_progress_resume norm hlen hcell bound, hvalue, hbelow, hstop,
    fun hlt => hstop.resolve_right (not_not_intro hlt)⟩

/-- The Euclidean norm of four components, of which the second one is a NaN, resumed after the
first: the fold stops at the NaN, which is not below the bound 20, and the complete fold is not below
it either. -/
theorem resume_stops_first_nan :
    ([0, 0, 0, 0] : List Float).length = ([3, 0 / 0, 1, 1] : List Float).length ∧
    (⟨9, 1⟩ : PartialDistance).progress ≤ ([0, 0, 0, 0] : List Float).length ∧
    IsLeast {k | 1 ≤ k ∧ (k = 4 ∨
      ¬ valueAt .euclidean [0, 0, 0, 0] [3, 0 / 0, 1, 1] ⟨9, 1⟩ k < 20)} 2 ∧
    (20 : Float) ≤ 30 ∧
    (resume .euclidean [0, 0, 0, 0] [3, 0 / 0, 1, 1] 20 ⟨9, 1⟩).progress ≤
      (resume .euclidean [0, 0, 0, 0] [3, 0 / 0, 1, 1] 30 ⟨9, 1⟩).progress ∧
    ¬ valueAt .euclidean [0, 0, 0, 0] [3, 0 / 0, 1, 1] ⟨9, 1⟩ 4 < 20 := by
  have hlen : ([0, 0, 0, 0] : List Float).length = ([3, 0 / 0, 1, 1] : List Float).length := by
    decide
  have hcell : (⟨9, 1⟩ : PartialDistance).progress ≤ ([0, 0, 0, 0] : List Float).length := by decide
  have hlawful := NormMode.euclidean.prunable_norm
  obtain ⟨hstops, hmono, hrest⟩ := resume_stops_first .euclidean hlen hcell
  have hprogress :
      (resume .euclidean [0, 0, 0, 0] [3, 0 / 0, 1, 1] 20 ⟨9, 1⟩).progress = 2 := by
    decide +kernel
  have hleft : (resume .euclidean [0, 0, 0, 0] [3, 0 / 0, 1, 1] 20 ⟨9, 1⟩).progress <
      ([0, 0, 0, 0] : List Float).length := by
    rw [hprogress]
    decide
  obtain ⟨-, hleast, -⟩ := hstops 20
  rw [hprogress] at hleast
  exact ⟨hlen, hcell, hleast, by decide, hmono 20 30 (by decide),
    hrest hlawful.inflationary hlawful.absorbing (.inl (by decide)) 20 hleft⟩

end PartialDistance

end Proximity
