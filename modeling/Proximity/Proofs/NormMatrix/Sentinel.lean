import Proximity.Proofs.Norm.Range
import Proximity.Proofs.NormMatrix.Variables

/-!
# The infinite row

A norm matrix marks its reference row by infinity.  The entries of finite series are no NaNs and not
negative, but an entry outside the reference row can be infinite as well, if a distance leaves the
finite range, and a row of such entries looks like a reference row.  It cannot happen if the
components are in the range of the norm.

* `Observations.Finite`, `Observations.Within` : components that are finite, or small.
* `NormMatrix.Marked` : no row but the reference row has infinite entries.
* `Engine.pairMatrix_overflow` : finite series with a matrix that is not marked.
* `Engine.tables_of_finite` : **when the tables of finite series are marked**.
-/

namespace Proximity

/-- The components of every row are finite. -/
def Observations.Finite (rows : Observations) : Prop := ∀ row ∈ rows, ∀ c ∈ row, c.isFinite = true

/-- The components of every row are at most `limit` in magnitude. -/
def Observations.Within (rows : Observations) (limit : Float) : Prop :=
  ∀ row ∈ rows, ∀ c ∈ row, c.abs ≤ limit

instance (rows : Observations) : Decidable rows.Finite :=
  inferInstanceAs (Decidable (∀ row ∈ rows, ∀ c ∈ row, c.isFinite = true))

instance (rows : Observations) (limit : Float) : Decidable (rows.Within limit) :=
  inferInstanceAs (Decidable (∀ row ∈ rows, ∀ c ∈ row, c.abs ≤ limit))

/-- No entry is a NaN or negative, and an entry is finite if and only if it is outside the reference
row. -/
def NormMatrix.Marked (m : NormMatrix) : Prop :=
  ∀ i j v, m.get? i j = some v → 0 ≤ v ∧ (v.isFinite = true ↔ i ≠ m.reference)

/-- A matrix is marked if its distances are finite and not negative. -/
theorem NormMatrix.marked_ofFn {rows columns reference : ℕ} {hc : 0 < columns}
    {hr : reference < rows} {distance : ℕ → ℕ → Float}
    (h : ∀ t < rows, t ≠ reference → ∀ s < columns,
      0 ≤ distance t s ∧ (distance t s).isFinite = true) :
    (ofFn rows columns reference hc hr distance).Marked := by
  intro i j v hv
  obtain ⟨hi, hj⟩ := lt_of_get? hv
  obtain rfl : cell reference distance i j = v := Option.some.inj ((get?_ofFn hi hj).symm.trans hv)
  by_cases hir : i = reference
  · subst hir
    rw [cell_self]
    have hinfinite : Scalar.infinity.isFinite ≠ true := by decide
    exact ⟨by decide, fun h => absurd h hinfinite, fun hne => absurd rfl hne⟩
  · rw [cell_of_ne hir]
    obtain ⟨hnonneg, hfinite⟩ := h i hi hir j hj
    exact ⟨hnonneg, fun _ => hir, fun _ => hfinite⟩

/-! ### Finite series -/

variable {rows : Observations} {series : List Observations} {reference n dims : ℕ}

theorem Observations.Finite.of_getElem? (h : rows.Finite) {t : ℕ} {x : List Float}
    (hx : rows[t]? = some x) : ∀ c ∈ x, c.isFinite = true :=
  h x (List.mem_of_getElem? hx)

/-- The matrix of finite series under a standard norm. -/
theorem NormMode.normMatrix_of_finite (mode : NormMode) (h : parallelRows series reference = .ok n)
    (hfinite : ∀ rows ∈ series, rows.Finite) :
    ∃ m, normMatrix mode.norm series reference = .ok m ∧
      (∀ (s t : ℕ) (rows : Observations) (x y : List Float), series[s]? = some rows →
        rows[reference]? = some x → rows[t]? = some y → t ≠ reference →
          ∃ v, m.get? t s = some v ∧ 0 ≤ v ∧
            (v.isFinite = true ↔ (mode.norm.accumulated x y).isFinite = true)) ∧
      ((∀ rows ∈ series, rows.Within mode.range) → m.Marked) := by
  obtain ⟨hc, hr, hmatrix⟩ := normMatrix_of_parallelRows mode.norm h
  obtain ⟨hpar, -⟩ := parallelRows_eq_ok_iff.1 h
  have hpos : ∀ (s : ℕ) (rows : Observations) (x : List Float), series[s]? = some rows →
      rows[reference]? = some x → 0 < x.length := by
    intro s rows x hs hx
    exact (hpar.comparable (List.mem_of_getElem? hs) hx hx).length_pos
  refine ⟨_, hmatrix, ?_, ?_⟩
  · intro s t rows x y hs hx hy ht
    have hmem := List.mem_of_getElem? hs
    obtain ⟨hslt, -⟩ := List.getElem?_eq_some_iff.1 hs
    obtain ⟨htlt, -⟩ := List.getElem?_eq_some_iff.1 hy
    have hfx := (hfinite rows hmem).of_getElem? hx
    have hfy := (hfinite rows hmem).of_getElem? hy
    refine ⟨mode.norm.distance x y, ?_, ?_, ?_⟩
    · rw [NormMatrix.get?_ofFn (hpar.length_eq rows hmem ▸ htlt) hslt, NormMatrix.cell_of_ne ht,
        seriesDistance_eq mode.norm hs hx hy]
    · exact mode.distance_nonneg hfx hfy (hpos s rows x hs hx)
    · exact mode.isFinite_distance_iff hfx hfy (hpos s rows x hs hx)
  · intro hwithin
    refine NormMatrix.marked_ofFn fun t ht htr s hs => ?_
    have hrows := List.getElem?_eq_getElem hs
    have hmem := List.mem_of_getElem? hrows
    have hlen := hpar.length_eq _ hmem
    have hx := List.getElem?_eq_getElem (hlen ▸ hr : reference < series[s].length)
    have hy := List.getElem?_eq_getElem (hlen ▸ ht : t < series[s].length)
    rw [seriesDistance_eq mode.norm hrows hx hy]
    refine ⟨mode.distance_nonneg ((hfinite _ hmem).of_getElem? hx)
      ((hfinite _ hmem).of_getElem? hy) (hpos s _ _ hrows hx), ?_⟩
    exact mode.isFinite_distance (hwithin _ hmem _ (List.mem_of_getElem? hx))
      (hwithin _ hmem _ (List.mem_of_getElem? hy)) (hpos s _ _ hrows hx)

/-- The table of the variables of a finite series. -/
theorem Observations.Rectangular.variableMatrix_of_finite (hrows : rows.Rectangular dims)
    (hr : reference < rows.length) (hfinite : rows.Finite) :
    ∃ m, variableMatrix rows reference = .ok m ∧
      (∀ (t v : ℕ) (x y : List Float) (d : Float), rows[reference]? = some x →
        rows[t]? = some y → t ≠ reference → (differences x y)[v]? = some d →
          ∃ c, m.get? t v = some c ∧ 0 ≤ c ∧ (c.isFinite = true ↔ d.isFinite = true)) ∧
      (rows.Within NormMode.maxNorm.range → m.Marked) := by
  obtain ⟨hc, _, hmatrix⟩ := variableMatrix_of_shape (hrows.shape_eq "series") hr
  have hnonneg : ∀ (t : ℕ) (x y : List Float), rows[reference]? = some x → rows[t]? = some y →
      ∀ d ∈ differences x y, 0 ≤ d.abs := by
    intro t x y hx hy d hd
    exact Scalar.abs_nonneg
      (isNaN_of_mem_differences (hfinite.of_getElem? hx) (hfinite.of_getElem? hy) hd)
  refine ⟨_, hmatrix, ?_, ?_⟩
  · intro t v x y d hx hy ht hd
    obtain ⟨htlt, -⟩ := List.getElem?_eq_some_iff.1 hy
    have hv : v < dims := by
      obtain ⟨hlt, -⟩ := List.getElem?_eq_some_iff.1 hd
      rwa [hrows.length_differences hx hy] at hlt
    refine ⟨d.abs, ?_, hnonneg t x y hx hy d (List.mem_of_getElem? hd), ?_⟩
    · rw [NormMatrix.get?_ofFn htlt hv, NormMatrix.cell_of_ne ht, variableDistance_eq hx hy hd]
    · rw [Scalar.isFinite_abs]
  · intro hwithin
    refine NormMatrix.marked_ofFn fun t ht htr v hv => ?_
    have hx := List.getElem?_eq_getElem hr
    have hy := List.getElem?_eq_getElem (show t < rows.length from ht)
    have hd := List.getElem?_eq_getElem (hrows.length_differences hx hy ▸ hv)
    have hmem := List.mem_of_getElem? hd
    have habs := hnonneg t _ _ hx hy _ hmem
    rw [variableDistance_eq hx hy hd]
    refine ⟨habs, (Scalar.isFinite_iff_lt_infinity habs).2 ?_⟩
    have hle := abs_le_of_mem_differences NormMode.maxNorm.range_lt_infinity
      (hwithin _ (List.mem_of_getElem? hx)) (hwithin _ (List.mem_of_getElem? hy)) hmem
    exact Scalar.lt_of_le_of_lt hle (by decide)

/-! ### Engines -/

/-- **When the tables of finite series are marked.**  An engine has a table for two parallel finite
series.  An entry outside the reference row is not negative and no NaN, and it is finite if and only
if the accumulator of the two rows is.  The same holds for the tables of the variables and the
differences.  If the components are in the range of the norm, no row but the reference row has
infinite entries. -/
theorem Engine.tables_of_finite (engine : Engine) {a b : Observations}
    (hparallel : parallelRows [a, b] reference = .ok n) (ha : a.Finite) (hb : b.Finite) :
    (∃ m, engine.pairMatrix a b reference = .ok m ∧
      (∀ (s t : ℕ) (rows : Observations) (x y : List Float), [a, b][s]? = some rows →
        rows[reference]? = some x → rows[t]? = some y → t ≠ reference →
          ∃ v, m.get? t s = some v ∧ 0 ≤ v ∧
            (v.isFinite = true ↔ (engine.norm.accumulated x y).isFinite = true)) ∧
      (a.Within engine.config.norm.range → b.Within engine.config.norm.range → m.Marked)) ∧
    ∀ rows ∈ [a, b], ∃ m, variableMatrix rows reference = .ok m ∧
      (∀ (t v : ℕ) (x y : List Float) (d : Float), rows[reference]? = some x →
        rows[t]? = some y → t ≠ reference → (differences x y)[v]? = some d →
          ∃ c, m.get? t v = some c ∧ 0 ≤ c ∧ (c.isFinite = true ↔ d.isFinite = true)) ∧
      (rows.Within NormMode.maxNorm.range → m.Marked) := by
  have hfinite : ∀ rows ∈ [a, b], rows.Finite := by
    intro rows hmem
    rcases List.mem_pair.1 hmem with rfl | rfl
    · exact ha
    · exact hb
  obtain ⟨hpar, hr⟩ := parallelRows_eq_ok_iff.1 hparallel
  constructor
  · obtain ⟨m, hm, hentries, hmarked⟩ :=
      engine.config.norm.normMatrix_of_finite hparallel hfinite
    refine ⟨m, hm, hentries, fun hwa hwb => hmarked fun rows hmem => ?_⟩
    rcases List.mem_pair.1 hmem with rfl | rfl
    · exact hwa
    · exact hwb
  · intro rows hmem
    obtain ⟨dims, hrows⟩ := hpar.rectangular rows hmem
    exact hrows.variableMatrix_of_finite (hpar.length_eq rows hmem ▸ hr) (hfinite rows hmem)

/-- Two series in range of the normalised Euclidean norm, and the differences of the first one. -/
theorem Engine.tables_of_finite_normalised :
    parallelRows [[[3, 0], [0, 4]], [[1], [-1]]] 0 = .ok 2 ∧
    Observations.Finite [[3, 0], [0, 4]] ∧ Observations.Finite [[1], [-1]] ∧
    (∃ m, Engine.pairMatrix ⟨.euclideanNormalised, 2⟩ [[3, 0], [0, 4]] [[1], [-1]] 0 = .ok m ∧
      m.Marked ∧ ∃ v, m.get? 1 0 = some v ∧ 0 ≤ v ∧ v.isFinite = true) ∧
    ∃ m, variableMatrix [[3, 0], [0, 4]] 0 = .ok m ∧ m.Marked ∧
      ∃ c, m.get? 1 1 = some c ∧ 0 ≤ c ∧ c.isFinite = true := by
  have hparallel : parallelRows [[[3, 0], [0, 4]], [[1], [-1]]] 0 = .ok 2 := by decide
  have ha : Observations.Finite [[3, 0], [0, 4]] := by decide
  have hb : Observations.Finite [[1], [-1]] := by decide
  obtain ⟨⟨m, hm, hentries, hmarked⟩, hvariables⟩ :=
    Engine.tables_of_finite ⟨.euclideanNormalised, 2⟩ hparallel ha hb
  obtain ⟨v, hv, hvnonneg, hvfinite⟩ := hentries 0 1 _ [3, 0] [0, 4] rfl rfl rfl (by decide)
  obtain ⟨m', hm', hentries', hmarked'⟩ := hvariables _ List.mem_cons_self
  obtain ⟨c, hc, hcnonneg, hcfinite⟩ :=
    hentries' 1 1 [3, 0] [0, 4] (0 - 4) rfl rfl (by decide) rfl
  exact ⟨hparallel, ha, hb,
    ⟨m, hm, hmarked (by decide +kernel) (by decide +kernel), v, hv, hvnonneg,
      hvfinite.2 (by decide +kernel)⟩,
    m', hm', hmarked' (by decide +kernel), c, hc, hcnonneg, hcfinite.2 (by decide)⟩

/-- A distance of `2 ^ 600` is finite, but its square is not, and the matrix is not marked.  A
difference of `2 ^ 1024` is not finite itself, and every row of every table looks like a reference
row. -/
theorem Engine.pairMatrix_overflow :
    parallelRows [[[0], [Scalar.powerOfTwo 600]], [[0], [1]]] 0 = .ok 2 ∧
    Observations.Finite [[0], [Scalar.powerOfTwo 600]] ∧ Observations.Finite [[0], [1]] ∧
    (∃ m, Engine.pairMatrix ⟨.euclidean, 2000⟩ [[0], [Scalar.powerOfTwo 600]] [[0], [1]] 0 = .ok m ∧
      m.get? 1 0 = some Scalar.infinity ∧ ¬ m.Marked) ∧
    Observations.Finite [[Scalar.powerOfTwo 1023], [-Scalar.powerOfTwo 1023]] ∧
    (∀ mode : NormMode, (Engine.pairMatrix ⟨mode, 2000⟩
        [[Scalar.powerOfTwo 1023], [-Scalar.powerOfTwo 1023]]
        [[Scalar.powerOfTwo 1023], [-Scalar.powerOfTwo 1023]] 0).map NormMatrix.toRows =
      .ok [[Scalar.infinity, Scalar.infinity], [Scalar.infinity, Scalar.infinity]]) ∧
    (variableMatrix [[Scalar.powerOfTwo 1023], [-Scalar.powerOfTwo 1023]] 0).map NormMatrix.toRows =
      .ok [[Scalar.infinity], [Scalar.infinity]] := by
  have hentry : (Engine.pairMatrix ⟨.euclidean, 2000⟩ [[0], [Scalar.powerOfTwo 600]]
      [[0], [1]] 0).map (fun m => (m.reference, m.get? 1 0)) =
        .ok (0, some Scalar.infinity) := by
    decide +kernel
  refine ⟨by decide, by decide, by decide, ?_, by decide, ?_, by decide +kernel⟩
  · cases hm : Engine.pairMatrix ⟨.euclidean, 2000⟩ [[0], [Scalar.powerOfTwo 600]] [[0], [1]] 0 with
    | error e =>
      rw [hm] at hentry
      cases hentry
    | ok m =>
      rw [hm] at hentry
      obtain ⟨hreference, hinfinite⟩ := Prod.mk.inj (Except.ok.inj hentry)
      refine ⟨m, rfl, hinfinite, fun hmarked => ?_⟩
      -- the entry should be finite, since it is not in the reference row
      have hfinite := (hmarked 1 0 _ hinfinite).2.2 (by rw [hreference]; decide)
      exact absurd hfinite (by decide)
  · intro mode
    cases mode <;> decide +kernel

end Proximity
