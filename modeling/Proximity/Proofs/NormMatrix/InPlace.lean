import Proximity.Proofs.NormMatrix.Views

/-!
# Norm matrices in place

A norm matrix is defined by its entries.  Its values can also be filled in place: from zeros whose
reference row is filled with infinity, by writing the other rows one after another.  The values
always give entries for all places, so the next write is described by what it changes in them.

* `NormMatrix.writeRow`, `NormMatrix.blank`, `NormMatrix.inPlace` : the writes.
* `NormMatrix.writeRow_valuesOf`, `NormMatrix.foldl_writeRow_valuesOf` : what one write, and what
  several writes change.
* `NormMatrix.values_ofFn` : **every entry outside the reference row is written, and the reference
  row is left alone**.
-/

namespace Proximity

namespace NormMatrix

/-! ### Writing -/

/-- The values with other ones from place `start` up to place `stop`, as far as there are any. -/
def writeSlice (values : Array Float) (start stop : ℕ) (cells : List Float) : Array Float :=
  values.mapIdx fun p v => if start ≤ p ∧ p < stop then cells.getD (p - start) v else v

/-- The values with other ones in row `i`. -/
def writeRow (columns : ℕ) (values : Array Float) (i : ℕ) (cells : List Float) : Array Float :=
  writeSlice values (i * columns) ((i + 1) * columns) cells

/-- Zeros with an infinite reference row. -/
def blank (rows columns reference : ℕ) : Array Float :=
  writeRow columns (Array.replicate (rows * columns) 0) reference
    (List.replicate columns Scalar.infinity)

/-- The values after every row but the reference row is written. -/
def inPlace (rows columns reference : ℕ) (cells : ℕ → List Float) : Array Float :=
  ((List.range rows).filter (· != reference)).foldl
    (fun values t => writeRow columns values t (cells t)) (blank rows columns reference)

@[simp] theorem size_writeRow (columns : ℕ) (values : Array Float) (i : ℕ) (cells : List Float) :
    (writeRow columns values i cells).size = values.size := Array.size_mapIdx

@[simp] theorem size_blank (rows columns reference : ℕ) :
    (blank rows columns reference).size = rows * columns := by
  rw [blank, size_writeRow, Array.size_replicate]

/-! ### What the writes change -/

/-- The values with the given entries. -/
def valuesOf (rows columns : ℕ) (cell : ℕ → ℕ → Float) : Array Float :=
  Array.ofFn fun p : Fin (rows * columns) => cell (p.val / columns) (p.val % columns)

variable {rows columns reference t : ℕ} {cell cell' distance : ℕ → ℕ → Float}
  {cells : ℕ → List Float}

theorem valuesOf_congr (hc : 0 < columns) (h : ∀ i < rows, ∀ j < columns, cell i j = cell' i j) :
    valuesOf rows columns cell = valuesOf rows columns cell' := by
  refine congrArg Array.ofFn (funext fun p => ?_)
  have hp : p.val < columns * rows := Nat.mul_comm rows columns ▸ p.isLt
  exact h _ (Nat.div_lt_of_lt_mul hp) _ (Nat.mod_lt _ hc)

/-- A write changes the entries of its row. -/
theorem writeRow_valuesOf (hc : 0 < columns) (t : ℕ) (g : ℕ → Float) :
    writeRow columns (valuesOf rows columns cell) t ((List.range columns).map g) =
      valuesOf rows columns fun i j => if i = t then g j else cell i j := by
  refine Array.ext (by simp [valuesOf]) fun p _ _ => ?_
  simp only [writeRow, writeSlice, valuesOf, Array.getElem_mapIdx, Array.getElem_ofFn]
  -- the places of the row are those that give it as a quotient
  have hrow : (t * columns ≤ p ∧ p < (t + 1) * columns) ↔ p / columns = t := by
    rw [Nat.div_eq_iff hc, Nat.succ_mul]
    omega
  simp only [hrow]
  split_ifs with hpt
  · have hplace : p - t * columns = p % columns := by
      rw [← hpt, Nat.mod_eq_sub_div_mul]
    rw [hplace, List.getD_eq_getElem?_getD, List.getElem?_map,
      List.getElem?_range (Nat.mod_lt p hc)]
    rfl
  · rfl

theorem blank_eq_valuesOf (hc : 0 < columns) (rows reference : ℕ) :
    blank rows columns reference =
      valuesOf rows columns fun i _ => if i = reference then Scalar.infinity else 0 := by
  have hzeros : Array.replicate (rows * columns) 0 = valuesOf rows columns fun _ _ => 0 :=
    Array.ext (by simp [valuesOf]) fun p _ _ => by simp [valuesOf]
  have hinfinite : List.replicate columns Scalar.infinity =
      (List.range columns).map fun _ => Scalar.infinity := by
    rw [List.map_const', List.length_range]
  rw [blank, hzeros, hinfinite, writeRow_valuesOf hc]

/-- Several writes change the entries of their rows. -/
theorem foldl_writeRow_valuesOf (hc : 0 < columns) {written : List ℕ}
    (h : ∀ t ∈ written, cells t = (List.range columns).map (distance t)) :
    written.foldl (fun values t => writeRow columns values t (cells t))
        (valuesOf rows columns cell) =
      valuesOf rows columns fun i j => if i ∈ written then distance i j else cell i j := by
  induction written generalizing cell with
  | nil => simp
  | cons t written ih =>
    obtain ⟨ht, hrest⟩ := List.forall_mem_cons.1 h
    rw [List.foldl_cons, ht, writeRow_valuesOf hc, ih hrest]
    refine congrArg (valuesOf rows columns) (funext₂ fun i j => ?_)
    by_cases hit : i = t
    · subst hit
      simp
    · simp [hit]

/-- **Every entry outside the reference row is written, and the reference row is left alone.** -/
theorem values_ofFn (hc : 0 < columns) (hr : reference < rows)
    (h : ∀ t < rows, t ≠ reference → cells t = (List.range columns).map (distance t)) :
    (ofFn rows columns reference hc hr distance).values = inPlace rows columns reference cells := by
  have hwritten : ∀ t ∈ (List.range rows).filter (· != reference),
      cells t = (List.range columns).map (distance t) := by
    intro t hmem
    simp only [List.mem_filter, List.mem_range, bne_iff_ne] at hmem
    exact h t hmem.1 hmem.2
  rw [inPlace, blank_eq_valuesOf hc, foldl_writeRow_valuesOf hc hwritten]
  refine valuesOf_congr hc fun i hi j _ => ?_
  by_cases hir : i = reference
  · simp [hir, cell_self]
  · simp [hi, hir, cell_of_ne]

end NormMatrix

end Proximity
