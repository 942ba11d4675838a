import Proximity.Engine
import Proximity.Norm.Variants
import Proximity.Proofs.Search.Limits

/-!
# What the searches report

The log of a search tells which algorithm ran.  The choice is reported before the rows are checked,
so it is reported of rows that are refused as well; the table of pairs is reported once it is there,
so only by the fast search and only of rows that are accepted and within its limits.  Nothing else
is ever reported.

* `Observations.Accepted` : the check before a search succeeds.
* `TableReport` : what the table of pairs contributes to a log.
* `Fast.tableReport`, `minDistancesBy_tableReport` : the log of a search that is asked for by name.
* `Engine.events_of_quiet` : the calls of an engine that report nothing.
* `minDistances_reports` : **the log of a search that is chosen by the number of rows**, and what it
  says about the result.
-/

namespace Proximity

variable {rows : Observations}

/-- The check before a search succeeds. -/
def Observations.Accepted (rows : Observations) : Prop := ∃ shape, rows.searchShape = .ok shape

/-- What the table of pairs of `n` rows contributes to a log: one report if it is allocated, and
nothing otherwise. -/
inductive TableReport (n : ℕ) (allocated : Prop) : List Event → Prop where
  /-- The table is allocated. -/
  | made (h : allocated) : TableReport n allocated [.tableAllocated n (n * (n - 1) / 2)]
  /-- There is no table. -/
  | missing (h : ¬ allocated) : TableReport n allocated []

theorem TableReport.congr {n : ℕ} {p q : Prop} {events : List Event} (hpq : p ↔ q)
    (h : TableReport n p events) : TableReport n q events := propext hpq ▸ h

/-! ### Searches that are asked for by name -/

/-- **The log of the fast search.** -/
theorem Fast.tableReport (norm : Norm) (rows : Observations) :
    TableReport rows.length (rows.Accepted ∧ rows.FitTable)
      (Fast.minDistances norm rows).events := by
  unfold Fast.minDistances
  cases hshape : Fast.tableShape rows with
  | error e =>
    refine .missing ?_
    rintro ⟨⟨shape, hok⟩, hfit⟩
    rw [Fast.tableShape_eq_ok_iff.2 ⟨hok, hfit⟩] at hshape
    cases hshape
  | ok shape =>
    -- the reported size is the one that the check has found
    obtain ⟨hok, hfit⟩ := Fast.tableShape_eq_ok_iff.1 hshape
    obtain ⟨hrows, -⟩ := Observations.searchShape_eq_ok_iff.1 hok
    change TableReport _ _ [.tableAllocated shape.rows (PairTable.cellCount shape.rows)]
    rw [hrows]
    exact .made ⟨⟨shape, hok⟩, hfit⟩

/-- The log of either search. -/
theorem minDistancesBy_tableReport (norm : Norm) (algorithm : Algorithm) (rows : Observations) :
    TableReport rows.length (algorithm = .fast ∧ rows.Accepted ∧ rows.FitTable)
      (minDistancesBy norm algorithm rows).events := by
  cases algorithm with
  | naive => exact .missing (by rintro ⟨⟨⟩, -⟩)
  | fast => exact (Fast.tableReport norm rows).congr (by simp)

theorem Algorithm.select_eq_fast_iff {n : ℕ} {maxRows : UInt64} :
    Algorithm.select n maxRows = .fast ↔ n ≤ maxRows.toNat := by
  unfold Algorithm.select
  split_ifs with h <;> simp [h]

/-! ### Engines -/

@[simp] theorem NormMode.mode_norm (mode : NormMode) : mode.norm.mode = mode := by
  cases mode <;> rfl

/-- The calls that need no table and choose no search. -/
def Call.Quiet : Call → Prop
  | .minDistances _ => False
  | .minDistancesBy algorithm _ => algorithm = .naive
  | _ => True

/-- A quiet call reports nothing. -/
theorem Engine.events_of_quiet (engine : Engine) {call : Call} (h : call.Quiet) :
    (engine.answer call).events = [] := by
  cases call with
  | minDistances rows => exact h.elim
  | minDistancesBy algorithm rows =>
    change algorithm = .naive at h
    subst h
    rfl
  | _ => rfl

/-! ### Searches that are chosen by the number of rows -/

/-- **The log tells which algorithm ran.**  A search begins its log with one report of the number of
rows, the threshold, the mode of the norm and the algorithm that the threshold selects, which is the
one that a configuration with this threshold predicts.  One more report follows if and only if the
rows do not exceed the threshold, are accepted and are within the limits of the fast search, with
their number and the number of their pairs.  The result is that of the reported algorithm.  When an
algorithm is asked for by name, the fast search has the second report alone, under the same
condition on the rows, and the naive search has none; and an engine reports nothing for a call that
does not search. -/
theorem minDistances_reports (norm : Norm) (maxRows : UInt64) (rows : Observations) :
    (∃ later, (minDistances norm maxRows rows).events =
        .searchChosen rows.length maxRows norm.mode (.select rows.length maxRows) :: later ∧
      TableReport rows.length
        (rows.length ≤ maxRows.toNat ∧ rows.Accepted ∧ rows.FitTable) later) ∧
    (minDistances norm maxRows rows).result =
      (minDistancesBy norm (.select rows.length maxRows) rows).result ∧
    (∀ mode : NormMode,
      Config.algorithmFor ⟨mode, maxRows⟩ rows.length = .select rows.length maxRows) ∧
    TableReport rows.length (rows.Accepted ∧ rows.FitTable)
      (minDistancesBy norm .fast rows).events ∧
    (minDistancesBy norm .naive rows).events = [] ∧
    ∀ engine : Engine,
      (engine.answer (.minDistances rows)).events.head? =
        some (.searchChosen rows.length engine.config.maxRowsForFast engine.config.norm
          (engine.config.algorithmFor rows.length)) ∧
      ∀ call : Call, call.Quiet → (engine.answer call).events = [] := by
  refine ⟨⟨(minDistancesBy norm (.select rows.length maxRows) rows).events, rfl, ?_⟩, rfl,
    fun mode => rfl, Fast.tableReport norm rows, rfl,
    fun engine => ⟨?_, fun call => engine.events_of_quiet⟩⟩
  · have hreport := minDistancesBy_tableReport norm (.select rows.length maxRows) rows
    exact hreport.congr (and_congr_left' Algorithm.select_eq_fast_iff)
  · have hmode : engine.norm.mode = engine.config.norm := engine.config.norm.mode_norm
    rw [← hmode]
    rfl

/-- The one-sided sum of excesses on two rows.  At a threshold of two the log names the fast search
and shows its table, below it names the naive one, and the two results differ.  A single row is
refused after the choice has been reported, and a distance reports nothing. -/
theorem minDistances_reports_excess :
    (minDistances .excess 2 [[0], [1]]).events =
      [.searchChosen 2 2 .maxNorm .fast, .tableAllocated 2 1] ∧
    (minDistances .excess 2 [[0], [1]]).result = .ok [0, 0] ∧
    (minDistances .excess 1 [[0], [1]]).events = [.searchChosen 2 1 .maxNorm .naive] ∧
    (minDistances .excess 1 [[0], [1]]).result = .ok [0, 1] ∧
    (minDistances .excess 2 [[0]]).events = [.searchChosen 1 2 .maxNorm .fast] ∧
    (Engine.answer ⟨.maxNorm, 2⟩ (.distance [0] [1])).events = [] := by
  have haccepted : Observations.Accepted [[0], [1]] := ⟨⟨2, 1⟩, by decide⟩
  have hfit : Observations.FitTable [[0], [1]] := by decide
  have hrefused : ¬ Observations.Accepted [[0]] := by
    rintro ⟨shape, hshape⟩
    cases hshape
  obtain ⟨⟨later, hchosen, hlater⟩, hresult, -, -, -, hengine⟩ :=
    minDistances_reports .excess 2 [[0], [1]]
  obtain ⟨⟨later', hchosen', hlater'⟩, hresult', -⟩ := minDistances_reports .excess 1 [[0], [1]]
  obtain ⟨⟨later'', hchosen'', hlater''⟩, -⟩ := minDistances_reports .excess 2 [[0]]
  refine ⟨?_, hresult.trans (by decide +kernel), ?_, hresult'.trans (by decide +kernel), ?_,
    (hengine ⟨.maxNorm, 2⟩).2 (.distance [0] [1]) trivial⟩
  · cases hlater with
    | made h => exact hchosen
    | missing h => exact absurd ⟨by decide, haccepted, hfit⟩ h
  · cases hlater' with
    | made h => exact absurd h.1 (by decide)
    | missing h => exact hchosen'
  · cases hlater'' with
    | made h => exact absurd h.2.1 hrefused
    | missing h => exact hchosen''

end Proximity
