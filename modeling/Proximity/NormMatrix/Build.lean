import Proximity.Norm.Basic
import Proximity.NormMatrix.Basic
import Proximity.Observations

/-!
# Building norm matrices

The distances from a reference row are measured in several parallel series, one column per series,
or in one series, one column per variable.

## Main definitions

* `normMatrix` : one column per series, by a norm.
* `pairMatrix`, `tripleMatrix` : the same for two and for three series.
* `variableMatrix` : one column per variable, by absolute differences.
-/

namespace Proximity

/-! ### What the checks promise -/

theorem reference_lt_of_checkReference {reference rows : Nat} {u : Unit}
    (h : checkReference reference rows = .ok u) : reference < rows := by
  unfold checkReference at h
  split at h
  · assumption
  · cases h

theorem dims_pos_of_shape {what : String} {rows : Observations} {shape : Shape}
    (h : rows.shape what = .ok shape) : 0 < shape.dims := by
  unfold Observations.shape at h
  split at h
  · cases h
  · split at h
    · cases h
    · split at h <;> cases h
      exact Nat.pos_of_ne_zero (by assumption)

theorem of_parallelRows {series : List Observations} {reference rows : Nat}
    (h : parallelRows series reference = .ok rows) :
    0 < series.length ∧ reference < rows := by
  unfold parallelRows at h
  split at h
  · cases h
  · cases h
  · rename_i n hn
    constructor
    · cases series with
      | nil => cases hn
      | cons _ _ => exact Nat.succ_pos _
    · cases hc : checkReference reference n with
      | error e => rw [hc] at h; cases h
      | ok u => rw [hc] at h; cases h; exact reference_lt_of_checkReference hc

/-! ### The builders -/

/-- The distance of the reference row to row `t` in series `s`, for series given as arrays of
rows. -/
def seriesDistance (norm : Norm) (series : Array (Array (List Float))) (reference t s : Nat) :
    Float :=
  let rows := series.getD s #[]
  norm.distance (rows.getD reference []) (rows.getD t [])

/-- The distances from the reference row in several parallel series, one column per series. -/
def normMatrix (norm : Norm) (series : List Observations) (reference : Nat) :
    Except InputError NormMatrix :=
  match h : parallelRows series reference with
  | .error e => .error e
  | .ok rows =>
    have checked := of_parallelRows h
    let tables := (series.map List.toArray).toArray
    .ok (.ofFn rows series.length reference checked.1 checked.2
      (seriesDistance norm tables reference))

/-- The distances from the reference row in two parallel series. -/
def pairMatrix (norm : Norm) (a b : Observations) (reference : Nat) : Except InputError NormMatrix :=
  normMatrix norm [a, b] reference

/-- The distances from the reference row in three parallel series. -/
def tripleMatrix (norm : Norm) (a b c : Observations) (reference : Nat) :
    Except InputError NormMatrix :=
  normMatrix norm [a, b, c] reference

/-- The absolute difference of the reference row and row `t` in variable `v`, for rows given as
arrays. -/
def variableDistance (rows : Array (Array Float)) (reference t v : Nat) : Float :=
  ((rows.getD reference #[]).getD v 0 - (rows.getD t #[]).getD v 0).abs

/-- The absolute differences from the reference row, one column per variable. -/
def variableMatrix (rows : Observations) (reference : Nat) : Except InputError NormMatrix :=
  match h : rows.shape "series" with
  | .error e => .error e
  | .ok shape =>
    match hr : checkReference reference shape.rows with
    | .error e => .error e
    | .ok _ =>
      let table := (rows.map List.toArray).toArray
      .ok (.ofFn shape.rows shape.dims reference (dims_pos_of_shape h)
        (reference_lt_of_checkReference hr) (variableDistance table reference))

end Proximity
