import Proximity.Norm.Standard
import Proximity.Proofs.PartialDistance

/-!
# Runs of resumptions

The fold of a pair is abandoned and resumed under one bound after another, and the pair may be
visited from either side.  Nothing is lost by that, whatever the norm does to its accumulators: the
cell stands where the largest of the bounds alone would have let it go.

* `Resumption`, `PartialDistance.resumeAll` : runs of resumptions.
* `PartialDistance.foldl_resume_eq` : a run goes as far as its largest bound, by induction on the
  bounds that are still to come.
* `PartialDistance.resume_start_of_forall_lt` : a bound above every accumulator completes a fold.
* `PartialDistance.resumptions_merge` : **a run of resumptions is one resumption**.
-/

namespace Proximity

/-- How a fold is resumed. -/
structure Resumption where
  /-- The two rows are exchanged. -/
  exchanged : Bool
  /-- The fold goes on while the accumulator is below this bound. -/
  bound : Float

namespace PartialDistance

variable {norm : Norm} {x y : List Float} {cell : PartialDistance} {b b' top : Float}

/-! ### Runs -/

/-- Resumes a fold over two rows, in the order that the resumption asks for. -/
def resumeBy (norm : Norm) (x y : List Float) (cell : PartialDistance) (r : Resumption) :
    PartialDistance :=
  if r.exchanged then cell.resume norm y x r.bound else cell.resume norm x y r.bound

/-- Resumes a fold several times. -/
def resumeAll (norm : Norm) (x y : List Float) (cell : PartialDistance)
    (rs : List Resumption) : PartialDistance :=
  rs.foldl (resumeBy norm x y) cell

/-- The order of the rows does not matter to a norm that is even in the difference. -/
theorem resumeBy_eq {r : Resumption} (h : norm.SwapEven ∨ r.exchanged = false) :
    cell.resumeBy norm x y r = cell.resume norm x y r.bound := by
  cases hr : r.exchanged with
  | false => simp only [resumeBy, hr, Bool.false_eq_true, ↓reduceIte]
  | true =>
    rcases h with heven | hfalse
    · simp only [resumeBy, hr, ↓reduceIte]
      exact resume_comm heven y x
    · rw [hr] at hfalse
      cases hfalse

theorem resumeAll_eq {rs : List Resumption}
    (h : norm.SwapEven ∨ ∀ r ∈ rs, r.exchanged = false) :
    cell.resumeAll norm x y rs =
      (rs.map Resumption.bound).foldl (fun cell b => cell.resume norm x y b) cell := by
  rw [resumeAll, List.foldl_map]
  refine List.foldl_ext _ _ _ fun cell r hr => ?_
  exact resumeBy_eq (h.imp_right fun hrs => hrs r hr)

/-- A cell that stands where a first bound lets it go stands, after further bounds, where the
largest of all lets it go. -/
theorem foldl_resume_eq {bs : List Float} (hb : b.isNaN = false)
    (hbs : ∀ b ∈ bs, b.isNaN = false) :
    bs.foldl (fun cell b => cell.resume norm x y b) (cell.resume norm x y b) =
      cell.resume norm x y (bs.foldl Scalar.larger b) := by
  induction bs generalizing b with
  | nil => rfl
  | cons b' bs ih =>
    obtain ⟨hb', hbs⟩ := List.forall_mem_cons.1 hbs
    rw [List.foldl_cons, List.foldl_cons, resume_resume hb hb' x y]
    exact ih (Scalar.isNaN_larger_of_left hb) hbs

/-- It does not matter which one of several largest bounds is taken. -/
theorem resume_eq_of_isLargest {bs : List Float} (h : IsLargest b bs) (h' : IsLargest b' bs) :
    cell.resume norm x y b = cell.resume norm x y b' :=
  resume_eq_of_le_of_le (h'.le b h.mem) (h.le b' h'.mem) x y

theorem foldl_resume_eq_of_isLargest {bs : List Float} (h : IsLargest top bs) :
    bs.foldl (fun cell b => cell.resume norm x y b) cell = cell.resume norm x y top := by
  cases bs with
  | nil => exact absurd h.mem List.not_mem_nil
  | cons b bs =>
    obtain ⟨hb, hbs⟩ := List.forall_mem_cons.1 fun b hb => Scalar.isNaN_left_of_le (h.le b hb)
    rw [List.foldl_cons, foldl_resume_eq hb hbs]
    exact resume_eq_of_isLargest (Scalar.isLargest_foldl_larger hb hbs) h

/-! ### Completing a fold -/

/-- A bound above every accumulator before the last one lets a fold go to the end. -/
theorem resume_start_of_forall_lt (hlen : x.length = y.length)
    (h : ∀ k < x.length, norm.fold ((differences x y).take k) < top) :
    start.resume norm x y top = ⟨norm.accumulated x y, x.length⟩ := by
  have hds : (differences x y).length = x.length := by
    rw [length_differences, ← hlen, Nat.min_self]
  obtain ⟨hfirst, hstop⟩ := (isPrefix_start norm (differences x y)).resume rfl rfl top
  have hcomplete : (start.resume norm x y top).progress = (differences x y).length := by
    refine hstop.elim id fun hnot => ?_
    -- the accumulator at which the fold stops is the last one
    by_contra hne
    have hlt : (start.resume norm x y top).progress < x.length :=
      hds ▸ Nat.lt_of_le_of_ne hfirst.progress_le hne
    exact hnot (hfirst.value_eq ▸ h _ hlt)
  have hvalue : (start.resume norm x y top).value = norm.accumulated x y :=
    hfirst.value_of_complete hcomplete
  rw [← hvalue, ← hds, ← hcomplete]

/-- **A run of resumptions is one resumption.**  For any norm, any rows and wherever a fold stands,
resuming it under two bounds that are not NaNs is resuming it under the larger one, and the rows may
be exchanged in between if the norm is even in the difference.  A run of any positive length has a
largest bound, and it is one resumption under it.  A run that begins with an empty fold, with a
largest bound above every accumulator before the last one, ends with the complete fold. -/
theorem resumptions_merge (norm : Norm) (x y : List Float) :
    (∀ (cell : PartialDistance) (b b' : Float), b.isNaN = false → b'.isNaN = false →
      (cell.resume norm x y b).resume norm x y b' =
        cell.resume norm x y (Scalar.larger b b') ∧
      (norm.SwapEven → (cell.resume norm x y b).resume norm y x b' =
        cell.resume norm x y (Scalar.larger b b'))) ∧
    ∀ rs : List Resumption, rs ≠ [] → (∀ r ∈ rs, r.bound.isNaN = false) →
      (norm.SwapEven ∨ ∀ r ∈ rs, r.exchanged = false) →
      (∃ top, IsLargest top (rs.map Resumption.bound)) ∧
      ∀ top, IsLargest top (rs.map Resumption.bound) →
        (∀ cell : PartialDistance,
          cell.resumeAll norm x y rs = cell.resume norm x y top) ∧
        (x.length = y.length →
          (∀ k < x.length, norm.fold ((differences x y).take k) < top) →
          start.resumeAll norm x y rs = ⟨norm.accumulated x y, x.length⟩) := by
  refine ⟨fun cell b b' hb hb' => ⟨resume_resume hb hb' x y, fun heven => ?_⟩,
    fun rs hne hnan horder => ⟨?_, fun top htop => ?_⟩⟩
  · rw [resume_comm heven y x, resume_resume hb hb' x y]
  · obtain ⟨r, rs, rfl⟩ := List.exists_cons_of_ne_nil hne
    obtain ⟨hr, hrs⟩ := List.forall_mem_cons.1 hnan
    exact ⟨_, Scalar.isLargest_foldl_larger hr (List.forall_mem_map.2 hrs)⟩
  · have hrun (cell : PartialDistance) :
        cell.resumeAll norm x y rs = cell.resume norm x y top := by
      rw [resumeAll_eq horder, foldl_resume_eq_of_isLargest htop]
    refine ⟨hrun, fun hlen hbelow => ?_⟩
    rw [hrun, resume_start_of_forall_lt hlen hbelow]

/-- The Euclidean norm of four components, visited from both sides: under three bounds, of which the
second one is above every accumulator, and under two bounds, of which the first one stops the fold
for both. -/
theorem resumptions_merge_euclidean :
    Norm.euclidean.SwapEven ∧
    IsLargest 30 [20, 30, 5] ∧
    (∀ k < 4, Norm.euclidean.fold ((differences [0, 0, 0, 0] [3, 4, 1, 1]).take k) < 30) ∧
    start.resumeAll Norm.euclidean [0, 0, 0, 0] [3, 4, 1, 1]
      [⟨false, 20⟩, ⟨true, 30⟩, ⟨false, 5⟩] = ⟨27, 4⟩ ∧
    (start.resume Norm.euclidean [0, 0, 0, 0] [3, 4, 1, 1] 20).resume Norm.euclidean [3, 4, 1, 1]
      [0, 0, 0, 0] 5 = ⟨25, 2⟩ := by
  have heven : Norm.euclidean.SwapEven := NormMode.euclidean.swapEven_norm
  have htop : IsLargest 30 [20, 30, 5] := ⟨by simp, by decide⟩
  have hbelow : ∀ k < 4,
      Norm.euclidean.fold ((differences [0, 0, 0, 0] [3, 4, 1, 1]).take k) < 30 := by decide
  obtain ⟨htwo, hrun⟩ := resumptions_merge Norm.euclidean [0, 0, 0, 0] [3, 4, 1, 1]
  obtain ⟨-, hexchanged⟩ := htwo start 20 5 (by decide) (by decide)
  obtain ⟨-, hcomplete⟩ :=
    (hrun [⟨false, 20⟩, ⟨true, 30⟩, ⟨false, 5⟩] (by decide) (by decide) (.inl heven)).2 30 htop
  exact ⟨heven, htop, hbelow, (hcomplete (by decide) hbelow).trans (by decide +kernel),
    (hexchanged heven).trans (by decide +kernel)⟩

end PartialDistance

end Proximity
