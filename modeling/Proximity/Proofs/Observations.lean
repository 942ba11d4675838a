import Mathlib.Data.List.Basic
import Proximity.Observations

/-!
# What an accepted table looks like

The checks of a table accept exactly the rectangular ones.

* `Observations.shape_eq_ok_iff` : a shape is reported if and only if the table has it.
* `Observations.searchShape_eq_ok_iff` : the same for tables to be searched, stated by
  `Searchable`.
* `checkOperands_eq_ok_iff` : the same for two vectors, stated by `Comparable`.
-/

namespace Proximity

/-! ### Results -/

theorem map_eq_error_iff {ε α β : Type} {x : Except ε α} {f : α → β} {e : ε} :
    x.map f = .error e ↔ x = .error e := by
  cases x <;> simp [Except.map]

theorem map_eq_ok_iff {ε α β : Type} {x : Except ε α} {f : α → β} {b : β} :
    x.map f = .ok b ↔ ∃ a, x = .ok a ∧ f a = b := by
  cases x <;> simp [Except.map]

/-! ### One table -/

namespace Observations

variable {rows : Observations}

theorem find?_ragged_eq_none {dims : ℕ} :
    (rows.zipIdx.find? fun row => row.1.length != dims) = none ↔
      ∀ row ∈ rows, row.length = dims := by
  rw [List.find?_eq_none]
  constructor
  · intro h row hrow
    obtain ⟨t, ht⟩ := List.mem_iff_getElem?.1 hrow
    simpa using h (row, t) (List.mk_mem_zipIdx_iff_getElem?.2 ht)
  · rintro h ⟨row, t⟩ hmem
    have hrow : row ∈ rows := List.mem_of_getElem? (List.mk_mem_zipIdx_iff_getElem?.1 hmem)
    simp [h row hrow]

/-- A shape is reported exactly for a table with rows and components that has it. -/
theorem shape_eq_ok_iff {what : String} {shape : Shape} :
    rows.shape what = .ok shape ↔
      0 < rows.length ∧ shape.rows = rows.length ∧ 0 < shape.dims ∧
        ∀ row ∈ rows, row.length = shape.dims := by
  cases rows with
  | nil => simp [Observations.shape]
  | cons first rest =>
    rw [Observations.shape]
    by_cases hzero : first.length = 0
    · rw [if_pos hzero]
      constructor
      · rintro ⟨⟩
      · rintro ⟨-, -, hpos, hall⟩
        have := hall first List.mem_cons_self
        omega
    · rw [if_neg hzero]
      cases hfind : List.find? (fun row => row.1.length != first.length)
          (List.zipIdx (first :: rest)) with
      | some row =>
        obtain ⟨row, t⟩ := row
        constructor
        · rintro ⟨⟩
        · rintro ⟨-, -, -, hall⟩
          have hdims := hall first List.mem_cons_self
          have hnone := find?_ragged_eq_none.2 hall
          rw [← hdims, hfind] at hnone
          cases hnone
      | none =>
        have hall := find?_ragged_eq_none.1 hfind
        constructor
        · rintro ⟨⟩
          exact ⟨Nat.succ_pos _, rfl, Nat.pos_of_ne_zero hzero, hall⟩
        · rintro ⟨-, hrows, -, hdims⟩
          obtain ⟨n, dims⟩ := shape
          have hfirst : first.length = dims := hdims first List.mem_cons_self
          subst hrows hfirst
          rfl

/-- The table is rectangular, and every row has another one to be compared with. -/
structure Searchable (rows : Observations) (dims : ℕ) : Prop where
  /-- There are two rows. -/
  two_le : 2 ≤ rows.length
  /-- There are components. -/
  dims_pos : 0 < dims
  /-- All rows are equally long. -/
  length_eq : ∀ row ∈ rows, row.length = dims

theorem Searchable.shape_eq {shape : Shape} (h : Searchable rows shape.dims)
    (hrows : shape.rows = rows.length) (what : String) : rows.shape what = .ok shape :=
  shape_eq_ok_iff.2 ⟨Nat.lt_of_lt_of_le Nat.two_pos h.two_le, hrows, h.dims_pos, h.length_eq⟩

/-- **The check before a search** accepts exactly the tables that can be searched. -/
theorem searchShape_eq_ok_iff {shape : Shape} :
    rows.searchShape = .ok shape ↔ shape.rows = rows.length ∧ Searchable rows shape.dims := by
  rw [searchShape]
  cases hs : rows.shape "observations" with
  | error e =>
    constructor
    · rintro ⟨⟩
    · rintro ⟨hrows, h⟩
      rw [h.shape_eq hrows] at hs
      cases hs
  | ok found =>
    obtain ⟨-, hrows, hpos, hall⟩ := shape_eq_ok_iff.1 hs
    by_cases htwo : found.rows < 2
    · simp only [htwo, ↓reduceIte]
      constructor
      · rintro ⟨⟩
      · rintro ⟨-, h⟩
        have := h.two_le
        omega
    · simp only [htwo, ↓reduceIte]
      constructor
      · rintro ⟨⟩
        exact ⟨hrows, ⟨by omega, hpos, hall⟩⟩
      · rintro ⟨hrows', h⟩
        rw [h.shape_eq hrows'] at hs
        rw [← Except.ok.inj hs]

theorem Searchable.searchShape_eq {dims : ℕ} (h : Searchable rows dims) :
    rows.searchShape = .ok ⟨rows.length, dims⟩ :=
  searchShape_eq_ok_iff.2 ⟨rfl, h⟩

theorem Searchable.length_getElem? {dims t : ℕ} {x : List Float} (h : Searchable rows dims)
    (hx : rows[t]? = some x) : x.length = dims :=
  h.length_eq x (List.mem_of_getElem? hx)

end Observations

/-! ### Two vectors -/

/-- Two vectors with components, and equally many. -/
structure Comparable (x y : List Float) : Prop where
  /-- There are components. -/
  length_pos : 0 < x.length
  /-- The vectors are equally long. -/
  length_eq : x.length = y.length

variable {x y : List Float}

theorem Comparable.symm (h : Comparable x y) : Comparable y x :=
  ⟨h.length_eq ▸ h.length_pos, h.length_eq.symm⟩

/-- **The check of two operands** accepts exactly the vectors that can be compared. -/
theorem checkOperands_eq_ok_iff {what : String} {u : Unit} :
    checkOperands what x y = .ok u ↔ Comparable x y := by
  unfold checkOperands
  split_ifs with hzero hlen
  · constructor
    · rintro ⟨⟩
    · rintro ⟨hpos, -⟩
      omega
  · exact ⟨fun _ => ⟨Nat.pos_of_ne_zero hzero, hlen⟩, fun _ => rfl⟩
  · constructor
    · rintro ⟨⟩
    · rintro ⟨-, heq⟩
      exact absurd heq hlen

theorem Comparable.checkOperands_eq (h : Comparable x y) (what : String) :
    checkOperands what x y = .ok () :=
  checkOperands_eq_ok_iff.2 h

end Proximity
