import Proximity.Proofs.Observations
import Proximity.Proofs.Search.PairTable
import Proximity.Search.MinDistances

/-!
# The limits of the fast search

The fast search refuses a table that is fit to be searched if its rows are too long for the progress
of a cell, or if there are too many of them for a table of pairs.  Within these limits both searches
accept the same tables, and the faults of a table come before its limits.

* `Observations.FitTable` : the limits, as a condition on the rows.
* `Observations.TableFault` : what is reported of a table beyond the limits.
* `Fast.tableShape_eq_ok_iff`, `Fast.tableShape_eq_error_iff` : **what the fast search accepts, and
  what it reports otherwise**.
* `Algorithm.Admits`, `Observations.shapeBy` : the same for the search that is asked for.
* `PairTable.mul_pred_lt_size_of_granted` : the places of a table within the limits are words.
-/

namespace Proximity

variable {rows : Observations} {shape : Shape} {dims n : ℕ} {e : InputError} {u : Unit}

/-! ### The table of pairs -/

namespace PairTable

theorem check_eq_ok_iff :
    check shape = .ok u ↔ shape.dims ≤ maxDims ∧ (request shape.rows).Granted := by
  unfold check
  split_ifs with hdims hgranted
  · simp [Nat.not_le_of_lt hdims]
  · simp [Nat.le_of_not_lt hdims, hgranted]
  · simp [hgranted]

theorem check_eq_error_iff :
    check shape = .error e ↔
      maxDims < shape.dims ∧ e = .tooManyDimensions shape.dims ∨
        shape.dims ≤ maxDims ∧ ¬ (request shape.rows).Granted ∧ e = .tableTooLarge shape.rows := by
  unfold check
  split_ifs with hdims hgranted
  · simp [hdims, Nat.not_le_of_lt hdims, eq_comm]
  · simp [hdims, hgranted]
  · simp [hdims, Nat.le_of_not_lt hdims, hgranted, eq_comm]

/-- The number of ordered pairs is a word if the accumulators of the unordered ones fit in a
vector. -/
theorem mul_pred_lt_size_of_granted (h : (request n).Granted) : n * (n - 1) < UInt64.size := by
  change n * (n - 1) / 2 * 8 ≤ maxBytes at h
  unfold maxBytes at h
  change _ < 18446744073709551616
  omega

end PairTable

/-! ### Tables of observations -/

namespace Observations

/-- If the rows can be searched, their table of pairs is within its limits. -/
def FitTable (rows : Observations) : Prop :=
  ∀ dims, rows.Searchable dims →
    dims ≤ PairTable.maxDims ∧ (PairTable.request rows.length).Granted

/-- What the fast search reports of a table that can be searched and is beyond the limits. -/
inductive TableFault (rows : Observations) : InputError → Prop where
  /-- The rows are too long. -/
  | dims {dims : ℕ} (hrows : rows.Searchable dims) (hdims : PairTable.maxDims < dims) :
    TableFault rows (.tooManyDimensions dims)
  /-- There are too many rows. -/
  | cells {dims : ℕ} (hrows : rows.Searchable dims) (hdims : dims ≤ PairTable.maxDims)
      (hcells : ¬ (PairTable.request rows.length).Granted) :
    TableFault rows (.tableTooLarge rows.length)

theorem Searchable.dims_eq {dims' : ℕ} (h : rows.Searchable dims) (h' : rows.Searchable dims') :
    dims = dims' := by
  obtain ⟨row, hrow⟩ := List.exists_mem_of_length_pos (Nat.lt_of_lt_of_le Nat.two_pos h.two_le)
  exact (h.length_eq row hrow).symm.trans (h'.length_eq row hrow)

theorem Searchable.fitTable_iff (h : rows.Searchable dims) :
    rows.FitTable ↔ dims ≤ PairTable.maxDims ∧ (PairTable.request rows.length).Granted := by
  constructor
  · intro hfit
    exact hfit dims h
  · intro hfit dims' h'
    rwa [← h.dims_eq h']

theorem Searchable.tableFault_iff (h : rows.Searchable dims) :
    rows.TableFault e ↔ PairTable.check ⟨rows.length, dims⟩ = .error e := by
  rw [PairTable.check_eq_error_iff]
  constructor
  · rintro (⟨h', hdims⟩ | ⟨h', hdims, hcells⟩)
    · rw [h'.dims_eq h] at hdims ⊢
      exact .inl ⟨hdims, rfl⟩
    · rw [h'.dims_eq h] at hdims
      exact .inr ⟨hdims, hcells, rfl⟩
  · rintro (⟨hdims, rfl⟩ | ⟨hdims, hcells, rfl⟩)
    · exact .dims h hdims
    · exact .cells h hdims hcells

theorem TableFault.exists_searchable (h : rows.TableFault e) : ∃ dims, rows.Searchable dims := by
  cases h with
  | dims hrows _ => exact ⟨_, hrows⟩
  | cells hrows _ _ => exact ⟨_, hrows⟩

/-- A table that is at fault is not looked at for its limits. -/
theorem TableFault.not_error {e' : InputError} (h : rows.TableFault e) :
    rows.searchShape ≠ .error e' := by
  obtain ⟨dims, hrows⟩ := h.exists_searchable
  rw [hrows.searchShape_eq]
  rintro ⟨⟩

end Observations

/-! ### What the fast search accepts -/

namespace Fast

theorem tableShape_of_searchShape (h : rows.searchShape = .ok shape) :
    tableShape rows = (PairTable.check shape).map fun _ => shape := by
  rw [tableShape, h]

theorem tableShape_of_error (h : rows.searchShape = .error e) : tableShape rows = .error e := by
  rw [tableShape, h]

/-- **What the fast search accepts.** -/
theorem tableShape_eq_ok_iff :
    tableShape rows = .ok shape ↔ rows.searchShape = .ok shape ∧ rows.FitTable := by
  cases hshape : rows.searchShape with
  | error e => simp [tableShape_of_error hshape]
  | ok found =>
    obtain ⟨hlen, hrows⟩ := Observations.searchShape_eq_ok_iff.1 hshape
    rw [tableShape_of_searchShape hshape, map_eq_ok_iff, hrows.fitTable_iff, ← hlen]
    simp only [PairTable.check_eq_ok_iff, exists_const, Except.ok.injEq, and_comm]

/-- **What the fast search reports otherwise:** the fault of the table, or else its limit. -/
theorem tableShape_eq_error_iff :
    tableShape rows = .error e ↔ rows.searchShape = .error e ∨ rows.TableFault e := by
  cases hshape : rows.searchShape with
  | error e' =>
    have hlimit : ¬ rows.TableFault e := fun h => h.not_error hshape
    simp only [tableShape_of_error hshape, hlimit, or_false]
  | ok found =>
    obtain ⟨n, dims⟩ := found
    obtain ⟨rfl, hrows⟩ := Observations.searchShape_eq_ok_iff.1 hshape
    rw [tableShape_of_searchShape hshape, map_eq_error_iff, hrows.tableFault_iff]
    simp only [reduceCtorEq, false_or]

/-- The limits are all that the fast search asks for besides. -/
theorem tableShape_eq_iff : tableShape rows = rows.searchShape ↔ rows.FitTable := by
  cases hshape : rows.searchShape with
  | error e =>
    have hfit : rows.FitTable := by
      intro dims hrows
      rw [hrows.searchShape_eq] at hshape
      cases hshape
    simp only [tableShape_of_error hshape, hfit]
  | ok shape => simp only [tableShape_eq_ok_iff, hshape, true_and]

end Fast

instance (rows : Observations) : Decidable rows.FitTable :=
  decidable_of_iff _ Fast.tableShape_eq_iff

/-! ### Either search -/

/-- What a search asks of a shape besides. -/
def Algorithm.check : Algorithm → Shape → Except InputError Unit
  | naive, _ => .ok ()
  | fast, shape => PairTable.check shape

/-- The table is within the limits of the search. -/
def Algorithm.Admits (algorithm : Algorithm) (rows : Observations) : Prop :=
  algorithm = .fast → rows.FitTable

instance (algorithm : Algorithm) (rows : Observations) : Decidable (algorithm.Admits rows) :=
  inferInstanceAs (Decidable (algorithm = .fast → rows.FitTable))

namespace Observations

variable {algorithm : Algorithm}

/-- The shape of a table that the search accepts. -/
def shapeBy (rows : Observations) : Algorithm → Except InputError Shape
  | .naive => rows.searchShape
  | .fast => Fast.tableShape rows

theorem shapeBy_eq_bind :
    rows.shapeBy algorithm = rows.searchShape.bind fun shape =>
      (algorithm.check shape).map fun _ => shape := by
  cases algorithm <;> cases hshape : rows.searchShape <;>
    simp [shapeBy, Fast.tableShape, hshape, Algorithm.check, Except.bind, Except.map]

/-- A search looks at nothing but the size of a table that can be searched. -/
theorem shapeBy_congr {rows' : Observations} (h : rows.searchShape = rows'.searchShape) :
    rows.shapeBy algorithm = rows'.shapeBy algorithm := by
  rw [shapeBy_eq_bind, shapeBy_eq_bind, h]

/-- **Within the limits of a search**, its check is that of the table alone. -/
theorem shapeBy_eq (h : algorithm.Admits rows) : rows.shapeBy algorithm = rows.searchShape := by
  cases algorithm with
  | naive => rfl
  | fast => exact Fast.tableShape_eq_iff.2 (h rfl)

theorem shapeBy_eq_ok_iff :
    rows.shapeBy algorithm = .ok shape ↔ rows.searchShape = .ok shape ∧ algorithm.Admits rows := by
  cases algorithm with
  | naive => simp [shapeBy, Algorithm.Admits]
  | fast => simp [shapeBy, Algorithm.Admits, Fast.tableShape_eq_ok_iff]

theorem shapeBy_eq_error_iff :
    rows.shapeBy algorithm = .error e ↔
      rows.searchShape = .error e ∨ algorithm = .fast ∧ rows.TableFault e := by
  cases algorithm with
  | naive => simp [shapeBy]
  | fast => simp [shapeBy, Fast.tableShape_eq_error_iff]

end Observations

end Proximity
