import Proximity.NormMatrix.Build
import Proximity.Proofs.Observations

/-!
# What accepted series look like

Series are scanned one after another.  Each has to be a table, and it has to have as many rows as
the ones before it; what is passed on from one series to the next is that number of rows.

* `Observations.Rectangular` : a table has rows and components, and its rows are equally long.
* `Parallel` : several such tables have the same number of rows.
* `Parallel.comparable` : two rows of a series can be compared.
* `extendParallel_eq_ok_iff`, `foldlM_extendParallel_eq_ok_iff` : taking one more series, and
  several.
* `parallelRows_eq_ok_iff` : **exactly the parallel series are accepted**, if the reference is one
  of their rows.
-/

namespace Proximity

/-! ### One table -/

namespace Observations

variable {rows : Observations} {dims : ℕ}

/-- The table has rows and components, and its rows are equally long. -/
structure Rectangular (rows : Observations) (dims : ℕ) : Prop where
  /-- There are rows. -/
  rows_pos : 0 < rows.length
  /-- There are components. -/
  dims_pos : 0 < dims
  /-- All rows are equally long. -/
  length_eq : ∀ row ∈ rows, row.length = dims

theorem shape_eq_ok_iff_rectangular {what : String} {shape : Shape} :
    rows.shape what = .ok shape ↔ shape.rows = rows.length ∧ rows.Rectangular shape.dims := by
  rw [shape_eq_ok_iff]
  constructor
  · rintro ⟨hrows, hn, hdims, hlen⟩
    exact ⟨hn, hrows, hdims, hlen⟩
  · rintro ⟨hn, hrows, hdims, hlen⟩
    exact ⟨hrows, hn, hdims, hlen⟩

theorem Rectangular.shape_eq (h : rows.Rectangular dims) (what : String) :
    rows.shape what = .ok ⟨rows.length, dims⟩ :=
  shape_eq_ok_iff_rectangular.2 ⟨rfl, h⟩

theorem Rectangular.length_getElem? (h : rows.Rectangular dims) {t : ℕ} {x : List Float}
    (hx : rows[t]? = some x) : x.length = dims :=
  h.length_eq x (List.mem_of_getElem? hx)

theorem Searchable.rectangular (h : rows.Searchable dims) : rows.Rectangular dims :=
  ⟨Nat.lt_of_lt_of_le Nat.two_pos h.two_le, h.dims_pos, h.length_eq⟩

end Observations

/-! ### Several tables -/

/-- There are series, and each is a table with the given number of rows. -/
structure Parallel (series : List Observations) (n : ℕ) : Prop where
  /-- There are series. -/
  ne_nil : series ≠ []
  /-- All have the same number of rows. -/
  length_eq : ∀ rows ∈ series, rows.length = n
  /-- Each is a table. -/
  rectangular : ∀ rows ∈ series, ∃ dims, rows.Rectangular dims

variable {series : List Observations} {rows : Observations} {n s reference : ℕ}

namespace Parallel

/-- The first ones of parallel series. -/
theorem of_append {more : List Observations} (h : Parallel (series ++ more) n)
    (hne : series ≠ []) : Parallel series n where
  ne_nil := hne
  length_eq _ hmem := h.length_eq _ (List.mem_append_left more hmem)
  rectangular _ hmem := h.rectangular _ (List.mem_append_left more hmem)

theorem lt_of_getElem? (h : Parallel series n) (hmem : rows ∈ series) {t : ℕ} {x : List Float}
    (hx : rows[t]? = some x) : t < n := by
  obtain ⟨hlt, -⟩ := List.getElem?_eq_some_iff.1 hx
  rwa [← h.length_eq rows hmem]

/-- The rows of a series can be compared. -/
theorem comparable (h : Parallel series n) (hmem : rows ∈ series) {t : ℕ} {x y : List Float}
    (hx : rows[reference]? = some x) (hy : rows[t]? = some y) : Comparable x y := by
  obtain ⟨dims, hrows⟩ := h.rectangular rows hmem
  refine ⟨?_, ?_⟩
  · rw [hrows.length_getElem? hx]
    exact hrows.dims_pos
  · rw [hrows.length_getElem? hx, hrows.length_getElem? hy]

end Parallel

/-- One more series is taken if it is a table with the expected number of rows, if there is an
expectation, and its own number of rows is expected from then on. -/
theorem extendParallel_eq_ok_iff {expected next : Option ℕ} :
    extendParallel expected (rows, s) = .ok next ↔
      next = some rows.length ∧ (∃ dims, rows.Rectangular dims) ∧
        ∀ n ∈ expected, rows.length = n := by
  rw [extendParallel]
  cases hshape : rows.shape s!"series {s}" with
  | error e =>
    constructor
    · rintro ⟨⟩
    · rintro ⟨-, ⟨dims, hrows⟩, -⟩
      rw [hrows.shape_eq] at hshape
      cases hshape
  | ok shape =>
    obtain ⟨hlen, hrows⟩ := Observations.shape_eq_ok_iff_rectangular.1 hshape
    cases expected with
    | none => simp [hlen, eq_comm, Exists.intro shape.dims hrows]
    | some n =>
      by_cases hn : n = shape.rows
      · simp [hn, hlen, eq_comm, Exists.intro shape.dims hrows]
      · have hne : rows.length ≠ n := by rwa [← hlen, ne_comm]
        simp [hn, hne]

/-- Further series are taken if each is a table with the expected number of rows. -/
theorem foldlM_extendParallel_eq_ok_iff {next : Option ℕ} :
    (series.zipIdx s).foldlM extendParallel (some n) = .ok next ↔
      next = some n ∧ ∀ rows ∈ series, rows.length = n ∧ ∃ dims, rows.Rectangular dims := by
  induction series generalizing s with
  | nil => simp [pure, Except.pure, eq_comm]
  | cons rows series ih =>
    rw [List.zipIdx_cons, List.foldlM_cons, List.forall_mem_cons]
    cases hstep : extendParallel (some n) (rows, s) with
    | error e =>
      constructor
      · rintro ⟨⟩
      · rintro ⟨-, ⟨hlen, hrows⟩, -⟩
        rw [extendParallel_eq_ok_iff.2 ⟨rfl, hrows, by simp [hlen]⟩] at hstep
        cases hstep
    | ok found =>
      obtain ⟨rfl, hrows, hlen⟩ := extendParallel_eq_ok_iff.1 hstep
      obtain rfl := hlen n rfl
      exact ih.trans (by simp [hrows])

/-- The scan of all series finds a number of rows if they are parallel. -/
theorem foldlM_none_eq_ok_some_iff :
    series.zipIdx.foldlM extendParallel none = .ok (some n) ↔ Parallel series n := by
  cases series with
  | nil =>
    constructor
    · rintro ⟨⟩
    · intro h
      exact absurd rfl h.ne_nil
  | cons first rest =>
    rw [List.zipIdx_cons, List.foldlM_cons]
    cases hstep : extendParallel none (first, 0) with
    | error e =>
      constructor
      · rintro ⟨⟩
      · intro h
        obtain ⟨dims, hrows⟩ := h.rectangular first List.mem_cons_self
        rw [extendParallel_eq_ok_iff.2 ⟨rfl, ⟨dims, hrows⟩, by simp⟩] at hstep
        cases hstep
    | ok found =>
      obtain ⟨rfl, hrows, -⟩ := extendParallel_eq_ok_iff.1 hstep
      refine foldlM_extendParallel_eq_ok_iff.trans ?_
      constructor
      · rintro ⟨hn, hrest⟩
        obtain rfl := Option.some.inj hn
        refine ⟨List.cons_ne_nil _ _, ?_, ?_⟩
        · exact List.forall_mem_cons.2 ⟨rfl, fun rows hmem => (hrest rows hmem).1⟩
        · exact List.forall_mem_cons.2 ⟨hrows, fun rows hmem => (hrest rows hmem).2⟩
      · intro h
        obtain ⟨rfl, hlen⟩ := List.forall_mem_cons.1 h.length_eq
        obtain ⟨-, hrect⟩ := List.forall_mem_cons.1 h.rectangular
        exact ⟨rfl, fun rows hmem => ⟨hlen rows hmem, hrect rows hmem⟩⟩

/-- **Exactly the parallel series are accepted**, if the reference is one of their rows. -/
theorem parallelRows_eq_ok_iff :
    parallelRows series reference = .ok n ↔ Parallel series n ∧ reference < n := by
  rw [← foldlM_none_eq_ok_some_iff, parallelRows]
  cases hscan : series.zipIdx.foldlM extendParallel none with
  | error e => simp
  | ok found =>
    cases found with
    | none => simp
    | some rows =>
      by_cases hlt : reference < rows
      · have hcheck : checkReference reference rows = .ok () := if_pos hlt
        simp only [hcheck, Except.map, Except.ok.injEq, Option.some.injEq]
        constructor
        · rintro rfl
          exact ⟨rfl, hlt⟩
        · exact fun h => h.1
      · have hcheck : checkReference reference rows = .error (.referenceOutOfRange reference rows) :=
          if_neg hlt
        simp only [hcheck, Except.map, Except.ok.injEq, Option.some.injEq, reduceCtorEq, false_iff]
        rintro ⟨rfl, h⟩
        exact hlt h

/-- A table alone is accepted as one series. -/
theorem Observations.Rectangular.parallelRows_singleton {dims : ℕ} (h : rows.Rectangular dims)
    (hr : reference < rows.length) : parallelRows [rows] reference = .ok rows.length := by
  refine parallelRows_eq_ok_iff.2 ⟨⟨List.cons_ne_nil _ _, ?_, ?_⟩, hr⟩
  · exact List.forall_mem_singleton.2 rfl
  · exact List.forall_mem_singleton.2 ⟨dims, h⟩

end Proximity
