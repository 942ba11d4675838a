import Proximity.Proofs.ParallelSeries
import Proximity.Proofs.Search.Lockstep

/-!
# The first fault

Several things can be wrong with the same input.  What is reported is the first fault in reading
order: series are read one after another, a row is compared with the first row of its table, and the
number of rows of a table with the one of the first table.  Only then is it asked whether there are
series at all, whether the reference is one of the rows, or whether there are two rows to compare.

* `Observations.Fault`, `Observations.shape_eq_error_iff` : the fault of a table.
* `SeriesFault`, `SeriesFault.extendParallel_eq` : the fault of one series among several.
* `foldlM_extendParallel_eq_error_iff` : the scan stops at the first series that has a fault.
* `ParallelFault`, `parallelRows_eq_error_iff` : **the first fault of several series**.
* `Observations.SearchFault`, `Observations.searchShape_eq_error_iff` : the first fault of a table
  to be searched.
* `InputError.Differs` : the lengths that an error shows differ.
* `checks_exact` : **what is accepted, and what is reported otherwise**.
-/

namespace Proximity

/-- An error about lengths shows two lengths that differ. -/
def InputError.Differs (e : InputError) : Prop :=
  e.kind = .shapeMismatch →
    ∃ what expected actual, e.message = mismatch what expected actual ∧ expected ≠ actual

/-! ### One table -/

namespace Observations

/-- What is wrong with a table that the caller calls `what`.  At most one fault is reported, and
later rows do not matter to it. -/
inductive Fault (what : String) (rows : Observations) : InputError → Prop where
  /-- There are no rows. -/
  | empty (h : rows = []) : Fault what rows (.empty what)
  /-- The first row has no components. -/
  | zeroDimensional (h : rows.head? = some []) : Fault what rows (.zeroDimensional what)
  /-- Row `t` is the first one that is not as long as the first row, which has components. -/
  | ragged {first row : List Float} {t : ℕ} (hfirst : rows.head? = some first) (hne : first ≠ [])
      (hrow : rows[t]? = some row) (hlength : row.length ≠ first.length)
      (hbefore : ∀ earlier ∈ rows.take t, earlier.length = first.length) :
      Fault what rows (.raggedRow what t first.length row.length)

variable {rows : Observations} {what : String} {e : InputError}

theorem find?_ragged_eq_some_iff {dims t : ℕ} {row : List Float} :
    (rows.zipIdx.find? fun row => row.1.length != dims) = some (row, t) ↔
      rows[t]? = some row ∧ row.length ≠ dims ∧ ∀ earlier ∈ rows.take t, earlier.length = dims := by
  rw [List.find?_eq_some_iff_getElem]
  simp only [List.length_zipIdx, List.getElem_zipIdx, Nat.zero_add, Prod.mk.injEq, bne_iff_ne,
    Bool.not_eq_eq_eq_not, Bool.not_true, bne_eq_false_iff_eq]
  constructor
  · rintro ⟨hne, i, hi, ⟨rfl, rfl⟩, hbefore⟩
    refine ⟨List.getElem?_eq_getElem hi, hne, fun earlier hmem => ?_⟩
    obtain ⟨u, hu, rfl⟩ := List.mem_take_iff_getElem.1 hmem
    exact hbefore u (Nat.lt_of_lt_of_le hu (Nat.min_le_left _ _))
  · rintro ⟨hrow, hne, hbefore⟩
    obtain ⟨ht, rfl⟩ := List.getElem?_eq_some_iff.1 hrow
    refine ⟨hne, t, ht, ⟨rfl, rfl⟩, fun u hu => hbefore _ ?_⟩
    exact List.mem_take_iff_getElem.2 ⟨u, Nat.lt_min.2 ⟨hu, Nat.lt_trans hu ht⟩, rfl⟩

theorem shape_cons {first : List Float} {rest : Observations} (hne : first ≠ []) :
    Observations.shape what (first :: rest) =
      match (List.zipIdx (first :: rest)).find? fun row => row.1.length != first.length with
      | some (row, t) => .error (.raggedRow what t first.length row.length)
      | none => .ok ⟨(first :: rest).length, first.length⟩ :=
  if_neg fun h => hne (List.eq_nil_of_length_eq_zero h)

/-- A fault is reported. -/
theorem Fault.shape_eq (h : rows.Fault what e) : rows.shape what = .error e := by
  cases h with
  | empty h =>
    subst h
    rfl
  | zeroDimensional h =>
    obtain ⟨rest, rfl⟩ := List.head?_eq_some_iff.1 h
    rfl
  | ragged hfirst hne hrow hlength hbefore =>
    obtain ⟨rest, rfl⟩ := List.head?_eq_some_iff.1 hfirst
    rw [shape_cons hne, find?_ragged_eq_some_iff.2 ⟨hrow, hlength, hbefore⟩]

/-- What is reported is a fault. -/
theorem fault_of_shape_eq (h : rows.shape what = .error e) : rows.Fault what e := by
  cases rows with
  | nil =>
    obtain rfl := Except.error.inj h
    exact .empty rfl
  | cons first rest =>
    by_cases hne : first = []
    · subst hne
      obtain rfl := Except.error.inj h
      exact .zeroDimensional rfl
    · rw [shape_cons hne] at h
      split at h
      · rename_i row t hfind
        obtain rfl := Except.error.inj h
        obtain ⟨hrow, hlength, hbefore⟩ := find?_ragged_eq_some_iff.1 hfind
        exact .ragged rfl hne hrow hlength hbefore
      · cases h

/-- **The fault of a table** is what its check reports. -/
theorem shape_eq_error_iff : rows.shape what = .error e ↔ rows.Fault what e :=
  ⟨fault_of_shape_eq, Fault.shape_eq⟩

theorem Fault.differs (h : rows.Fault what e) : e.Differs := by
  cases h with
  | empty _ => rintro ⟨⟩
  | zeroDimensional _ => rintro ⟨⟩
  | ragged _ _ _ hlength _ => exact fun _ => ⟨_, _, _, rfl, hlength.symm⟩

end Observations

/-! ### Several tables -/

/-- What is wrong with series `s` among several, if the series before it are faultless. -/
inductive SeriesFault (series : List Observations) (s : ℕ) : InputError → Prop where
  /-- The series itself has a fault. -/
  | table {rows : Observations} {e : InputError} (hrows : series[s]? = some rows)
      (hfault : rows.Fault s!"series {s}" e) : SeriesFault series s e
  /-- The series is a table, but not with as many rows as the first series. -/
  | length {first rows : Observations} (hfirst : series.head? = some first)
      (hrows : series[s]? = some rows) (htable : ∃ dims, rows.Rectangular dims)
      (hlength : rows.length ≠ first.length) :
      SeriesFault series s (.unequalSeries s first.length rows.length)

/-- None of the first `s` series has a fault. -/
def FaultlessBefore (series : List Observations) (s : ℕ) : Prop :=
  ∀ r < s, ∀ e, ¬ SeriesFault series r e

/-- What is wrong with several series and a reference row. -/
inductive ParallelFault (series : List Observations) (reference : ℕ) : InputError → Prop where
  /-- A series has a fault, and those before it have none. -/
  | series {s : ℕ} {e : InputError} (hfault : SeriesFault series s e)
      (hbefore : FaultlessBefore series s) : ParallelFault series reference e
  /-- There are no series. -/
  | none (h : series = []) : ParallelFault series reference .noSeries
  /-- The series are parallel, but the reference is not one of their rows. -/
  | reference {n : ℕ} (h : Parallel series n) (hreference : n ≤ reference) :
      ParallelFault series reference (.referenceOutOfRange reference n)

section Scan

variable {series before rest : List Observations} {rows : Observations} {e : InputError}
  {n s reference : ℕ}

theorem SeriesFault.lt_length (h : SeriesFault series s e) : s < series.length := by
  cases h with
  | table hrows _ => exact (List.getElem?_eq_some_iff.1 hrows).1
  | length _ hrows _ _ => exact (List.getElem?_eq_some_iff.1 hrows).1

/-- Of two first faults, neither is before the other. -/
theorem SeriesFault.eq_of_first {r : ℕ} {e' : InputError} (h : SeriesFault series r e)
    (hr : FaultlessBefore series r) (h' : SeriesFault series s e')
    (hs : FaultlessBefore series s) : r = s := by
  refine Nat.le_antisymm (Nat.le_of_not_lt fun hlt => ?_) (Nat.le_of_not_lt fun hlt => ?_)
  · exact hr s hlt e' h'
  · exact hs r hlt e h

/-- The number of rows that the series before the next one leave to be expected. -/
def expectedRows (before : List Observations) : Option ℕ := before.head?.map List.length

theorem getElem?_next : (before ++ rows :: rest)[before.length]? = some rows := by simp

/-- Reading one more series reports its fault. -/
theorem SeriesFault.extendParallel_eq
    (h : SeriesFault (before ++ rows :: rest) before.length e) :
    extendParallel (expectedRows before) (rows, before.length) = .error e := by
  cases h with
  | table hrows hfault =>
    obtain rfl := Option.some.inj (getElem?_next.symm.trans hrows)
    rw [extendParallel, hfault.shape_eq]
  | length hfirst hrows htable hlength =>
    obtain rfl := Option.some.inj (getElem?_next.symm.trans hrows)
    obtain ⟨dims, htable⟩ := htable
    cases before with
    | nil =>
      obtain rfl := Option.some.inj hfirst
      exact absurd rfl hlength
    | cons first before =>
      obtain rfl := Option.some.inj hfirst
      rw [extendParallel, htable.shape_eq]
      exact if_neg (Ne.symm hlength)

/-- What is reported on reading one more series is its fault. -/
theorem seriesFault_of_extendParallel_eq
    (h : extendParallel (expectedRows before) (rows, before.length) = .error e) :
    SeriesFault (before ++ rows :: rest) before.length e := by
  rw [extendParallel] at h
  split at h
  · rename_i hshape
    obtain rfl := Except.error.inj h
    exact .table getElem?_next (Observations.shape_eq_error_iff.1 hshape)
  · rename_i shape hshape
    obtain ⟨hlen, htable⟩ := Observations.shape_eq_ok_iff_rectangular.1 hshape
    cases before with
    | nil => cases h
    | cons first before =>
      change (if first.length = shape.rows then _ else _) = _ at h
      split_ifs at h with hlength
      obtain rfl := Except.error.inj h
      rw [hlen] at hlength ⊢
      exact .length rfl getElem?_next ⟨_, htable⟩ (Ne.symm hlength)

/-- A series that is taken leaves the number of rows of the first series to be expected. -/
theorem expectedRows_concat {next : Option ℕ}
    (h : extendParallel (expectedRows before) (rows, s) = .ok next) :
    next = expectedRows (before ++ [rows]) := by
  obtain ⟨rfl, -, hlength⟩ := extendParallel_eq_ok_iff.1 h
  cases before with
  | nil => rfl
  | cons first before => exact congrArg some (hlength first.length rfl)

theorem FaultlessBefore.concat (h : FaultlessBefore (before ++ rows :: rest) before.length)
    {next : Option ℕ}
    (hstep : extendParallel (expectedRows before) (rows, before.length) = .ok next) :
    FaultlessBefore (before ++ rows :: rest) (before.length + 1) := by
  intro r hr e' hfault
  rcases Nat.lt_succ_iff_lt_or_eq.1 hr with hlt | rfl
  · exact h r hlt e' hfault
  · rw [hfault.extendParallel_eq] at hstep
    cases hstep

/-- **The scan stops at the first series that has a fault.** -/
theorem foldlM_extendParallel_eq_error_iff
    (hbefore : FaultlessBefore (before ++ rest) before.length) :
    (rest.zipIdx before.length).foldlM extendParallel (expectedRows before) = .error e ↔
      ∃ s, SeriesFault (before ++ rest) s e ∧ FaultlessBefore (before ++ rest) s := by
  induction rest generalizing before with
  | nil =>
    constructor
    · rintro ⟨⟩
    · rintro ⟨s, hfault, -⟩
      have hs : s < before.length := by simpa using hfault.lt_length
      exact absurd hfault (hbefore s hs e)
  | cons rows rest ih =>
    rw [List.zipIdx_cons, List.foldlM_cons]
    cases hstep : extendParallel (expectedRows before) (rows, before.length) with
    | error e' =>
      have hhere : SeriesFault (before ++ rows :: rest) before.length e' :=
        seriesFault_of_extendParallel_eq hstep
      constructor
      · rintro ⟨⟩
        exact ⟨_, hhere, hbefore⟩
      · rintro ⟨s, hfault, hs⟩
        obtain rfl := hfault.eq_of_first hs hhere hbefore
        rw [← hstep, hfault.extendParallel_eq]
        rfl
    | ok next =>
      have hlen : (before ++ [rows]).length = before.length + 1 := List.length_append
      have hnext : FaultlessBefore (before ++ [rows] ++ rest) (before ++ [rows]).length := by
        rw [hlen, ← List.append_cons]
        exact hbefore.concat hstep
      have hscan := ih hnext
      obtain rfl := expectedRows_concat hstep
      rwa [hlen, ← List.append_cons] at hscan

/-- The scan of all series finds no number of rows only if there are none. -/
theorem foldlM_none_eq_ok_none_iff :
    series.zipIdx.foldlM extendParallel none = .ok none ↔ series = [] := by
  cases series with
  | nil => exact iff_of_true rfl rfl
  | cons first rest =>
    refine iff_of_false ?_ (List.cons_ne_nil _ _)
    rw [List.zipIdx_cons, List.foldlM_cons]
    cases hstep : extendParallel none (first, 0) with
    | error e => rintro ⟨⟩
    | ok found =>
      obtain ⟨rfl, -⟩ := extendParallel_eq_ok_iff.1 hstep
      intro h
      obtain ⟨⟨⟩, -⟩ := foldlM_extendParallel_eq_ok_iff.1 h

theorem scan_eq_error_iff :
    series.zipIdx.foldlM extendParallel none = .error e ↔
      ∃ s, SeriesFault series s e ∧ FaultlessBefore series s := by
  have hstart : FaultlessBefore ([] ++ series) ([] : List Observations).length := by
    rintro r ⟨⟩
  exact foldlM_extendParallel_eq_error_iff hstart

/-- **The first fault of several series** is what their check reports. -/
theorem parallelRows_eq_error_iff :
    parallelRows series reference = .error e ↔ ParallelFault series reference e := by
  constructor
  · intro h
    rw [parallelRows] at h
    split at h
    · rename_i hscan
      obtain rfl := Except.error.inj h
      obtain ⟨s, hfault, hbefore⟩ := scan_eq_error_iff.1 hscan
      exact .series hfault hbefore
    · rename_i hscan
      obtain rfl := Except.error.inj h
      exact .none (foldlM_none_eq_ok_none_iff.1 hscan)
    · rename_i n hscan
      rw [map_eq_error_iff, checkReference] at h
      split_ifs at h with hlt
      obtain rfl := Except.error.inj h
      exact .reference (foldlM_none_eq_ok_some_iff.1 hscan) (Nat.le_of_not_lt hlt)
  · intro h
    rw [parallelRows]
    cases h with
    | series hfault hbefore => rw [scan_eq_error_iff.2 ⟨_, hfault, hbefore⟩]
    | none h => rw [foldlM_none_eq_ok_none_iff.2 h]
    | reference h hreference =>
      rw [foldlM_none_eq_ok_some_iff.2 h]
      exact map_eq_error_iff.2 (if_neg (Nat.not_lt.2 hreference))

theorem ParallelFault.differs (h : ParallelFault series reference e) : e.Differs := by
  cases h with
  | series hfault _ =>
    cases hfault with
    | table _ hfault => exact hfault.differs
    | length _ _ _ hlength => exact fun _ => ⟨_, _, _, rfl, hlength.symm⟩
  | none _ => rintro ⟨⟩
  | reference _ _ => rintro ⟨⟩

end Scan

/-! ### Searches -/

/-- What is wrong with a table to be searched: a fault of the table, or else that there are fewer
than two rows. -/
inductive Observations.SearchFault (rows : Observations) : InputError → Prop where
  /-- The table has a fault. -/
  | table {e : InputError} (hfault : rows.Fault "observations" e) : SearchFault rows e
  /-- The rows have nothing to be compared with. -/
  | tooFew (htable : ∃ dims, rows.Rectangular dims) (hlength : rows.length < 2) :
      SearchFault rows (.tooFewObservations rows.length)

theorem Observations.searchShape_eq_error_iff {rows : Observations} {e : InputError} :
    rows.searchShape = .error e ↔ rows.SearchFault e := by
  constructor
  · intro h
    rw [searchShape] at h
    split at h
    · rename_i hshape
      obtain rfl := Except.error.inj h
      exact .table (shape_eq_error_iff.1 hshape)
    · rename_i shape hshape
      obtain ⟨hlen, htable⟩ := shape_eq_ok_iff_rectangular.1 hshape
      split_ifs at h with hlt
      obtain rfl := Except.error.inj h
      rw [hlen] at hlt ⊢
      exact .tooFew ⟨_, htable⟩ hlt
  · rintro (hfault | ⟨⟨dims, htable⟩, hlt⟩)
    · rw [searchShape, hfault.shape_eq]
    · rw [searchShape, htable.shape_eq]
      exact if_pos hlt

theorem Observations.SearchFault.differs {rows : Observations} {e : InputError}
    (h : rows.SearchFault e) : e.Differs := by
  cases h with
  | table hfault => exact hfault.differs
  | tooFew _ _ => rintro ⟨⟩

/-- **What is accepted, and what is reported otherwise.**  Several series are accepted exactly if
they are parallel and the reference is one of their rows, with their number of rows.  Otherwise
their first fault is reported: series are read in order, each first by itself and then against the
number of rows of the first one; then there may be no series at all, and last the reference is
looked at.  A table is accepted for a search exactly if it is rectangular and has two rows, with its
size.  Otherwise its fault is reported, or else that there are not two rows.  Every search, under
any norm, reports exactly that; and the fast search also reports a table that could be searched but
is beyond its limits.  An error about lengths shows two lengths that differ. -/
theorem checks_exact :
    (∀ series reference n,
      parallelRows series reference = .ok n ↔ Parallel series n ∧ reference < n) ∧
    (∀ series reference e,
      (parallelRows series reference = .error e ↔ ParallelFault series reference e) ∧
        (ParallelFault series reference e → e.Differs)) ∧
    ∀ rows : Observations,
      (∀ shape, rows.searchShape = .ok shape ↔
        shape.rows = rows.length ∧ rows.Rectangular shape.dims ∧ 2 ≤ rows.length) ∧
      (∀ e, (rows.searchShape = .error e ↔ rows.SearchFault e) ∧
        (rows.SearchFault e → e.Differs)) ∧
      ∀ (norm : Norm) (e : InputError),
        (∀ algorithm, (minDistancesBy norm algorithm rows).result = .error e ↔
          rows.SearchFault e ∨ algorithm = .fast ∧ rows.TableFault e) ∧
        ∀ maxRows, (minDistances norm maxRows rows).result = .error e ↔
          rows.SearchFault e ∨
            Algorithm.select rows.length maxRows = .fast ∧ rows.TableFault e := by
  refine ⟨fun _ _ _ => parallelRows_eq_ok_iff,
    fun _ _ _ => ⟨parallelRows_eq_error_iff, ParallelFault.differs⟩, fun rows => ?_⟩
  refine ⟨fun shape => ?_,
    fun e => ⟨Observations.searchShape_eq_error_iff, Observations.SearchFault.differs⟩,
    fun norm e => ?_⟩
  · rw [Observations.searchShape_eq_ok_iff]
    constructor
    · rintro ⟨hlen, h⟩
      exact ⟨hlen, h.rectangular, h.two_le⟩
    · rintro ⟨hlen, h, htwo⟩
      exact ⟨hlen, htwo, h.dims_pos, h.length_eq⟩
  · have hby : ∀ algorithm, (minDistancesBy norm algorithm rows).result = .error e ↔
        rows.SearchFault e ∨ algorithm = .fast ∧ rows.TableFault e := by
      intro algorithm
      rw [result_minDistancesBy_eq_map, map_eq_error_iff, Observations.shapeBy_eq_error_iff,
        Observations.searchShape_eq_error_iff]
    exact ⟨hby, fun maxRows => hby (.select rows.length maxRows)⟩

/-- Of a short row, an empty series, a series without components and a reference out of range, the
short row comes first. -/
example :
    parallelRows [[[1, 2], [3, 4], [5], []], [], [[]]] 9 =
      .error (.raggedRow "series 0" 2 2 1) := by
  decide

end Proximity
