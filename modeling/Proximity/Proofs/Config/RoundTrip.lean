import Proximity.Proofs.Config.Reading

/-!
# Writing and reading a configuration

What is written is a text of the grammar, without white space: an object whose members are the token
of the norm and the decimal notation of the count.  The names of the norms are turned into tokens
where they are written, and tokens are matched leniently where they are read, so the way back rests
on `upperSnakeCase_normName` and `NormMode.ofName_token`.

* `toList_toJson` : the text, with its parts.
* `spells_toJson`, `not_isBlank_toJson` : it is a compact text of the value that is written.
* `ofJson_toJson` : **what is written is read back**; `toJson_stable` : so texts become stable.
-/

namespace Proximity

namespace Config

open Json

/-- The members that are written. -/
def writtenMembers (c : Config) : List Member :=
  [.compact "norm" (.text c.norm.token) ('"' :: (c.norm.token.toList ++ ['"'])),
    .compact "max_rows_for_fast" (.count c.maxRowsForFast) (Nat.toDigits 10 c.maxRowsForFast.toNat)]

/-- The text is an object with these members. -/
theorem toList_toJson (c : Config) :
    (toJson c).toList =
      '{' :: (commaSeparated ((writtenMembers c).map Member.padded) ++ ['}']) := by
  simp [toJson, upperSnakeCase_normName, writtenMembers, commaSeparated_cons, String.toList_append,
    Nat.toString_eq_repr, Nat.toList_repr]

/-- The value that is written. -/
def written (c : Config) : Value :=
  .object [("norm", .text c.norm.token), ("max_rows_for_fast", .count c.maxRowsForFast)]

/-- The keys and the tokens have no characters that are escaped. -/
theorem isPlain_written (norm : NormMode) :
    "norm".toList.all isPlain = true ∧ "max_rows_for_fast".toList.all isPlain = true ∧
      norm.token.toList.all isPlain = true := by
  cases norm <;> decide

/-- **What is written is a text of the grammar.** -/
theorem spells_toJson (c : Config) : Spells (written c) (toJson c).toList := by
  obtain ⟨hnorm, hmaxRows, htoken⟩ := isPlain_written c.norm
  have hentries : written c = .object ((writtenMembers c).map Member.entry) := by
    simp [written, writtenMembers]
  rw [toList_toJson, hentries]
  refine .object (List.cons_ne_nil _ _) ?_ ?_
  · exact List.forall_mem_cons.2 ⟨spellsText_of_isPlain hnorm,
      List.forall_mem_singleton.2 (spellsText_of_isPlain hmaxRows)⟩
  · exact List.forall_mem_cons.2 ⟨spells_of_isPlain htoken,
      List.forall_mem_singleton.2 (.number (isNumeral_toDigits _))⟩

/-- There is no white space in it. -/
theorem not_isBlank_toJson (config : Config) :
    ∀ c ∈ (toJson config).toList, isBlank c = false := by
  have hdigits : ∀ c ∈ Nat.toDigits 10 config.maxRowsForFast.toNat, isBlank c = false := fun c hc =>
    (Opening.numeral (.inr (Nat.isDigit_of_mem_toDigits (by decide) (by decide) hc))).ne.1
  have htoken : config.norm.token.toList.all (fun c => !isBlank c) = true := by
    cases config.norm <;> decide
  have hkeys : "norm".toList.all (fun c => !isBlank c) = true ∧
      "max_rows_for_fast".toList.all (fun c => !isBlank c) = true := by decide
  have hpunctuation : isBlank '{' = false ∧ isBlank '"' = false ∧ isBlank ':' = false ∧
      isBlank ',' = false ∧ isBlank '}' = false := by decide
  simp only [List.all_eq_true, Bool.not_eq_true'] at htoken hkeys
  simp only [toList_toJson, writtenMembers, List.map_cons, List.map_nil, Member.padded_compact,
    commaSeparated_singleton, commaSeparated_cons _ (List.cons_ne_nil _ _), List.forall_mem_cons,
    List.forall_mem_append, hpunctuation, List.not_mem_nil, IsEmpty.forall_iff, implies_true,
    true_and, and_true]
  exact ⟨⟨hkeys.1, htoken⟩, hkeys.2, hdigits⟩

/-- The value that is written represents the configuration. -/
theorem represents_written (c : Config) : Represents (written c) c := by
  have hrepresents : Represents (written c) (ofMembers ⟨some c.norm, some c.maxRowsForFast⟩) :=
    .object (.present ⟨_, rfl, (NormMode.ofName_token c.norm).symm⟩) (.present rfl)
  exact hrepresents

/-- **What is written is read back.** -/
theorem ofJson_toJson (c : Config) : ofJson (toJson c) = .ok c := by
  have hdocument := (spells_toJson c).document
  rw [String.ofList_toList] at hdocument
  exact (ofJson_eq_ok_iff hdocument c).2 (represents_written c)

/-! ### Round trips -/

/-- **Writing loses nothing.**  Every configuration is read back from its text, which is compact
JSON with the token of the norm and the exact count; so whatever is read can be written and read
again, and the text that it is written to stays as it is from then on. -/
theorem toJson_stable :
    (∀ c, ofJson (toJson c) = .ok c) ∧
    (∀ c, Spells (written c) (toJson c).toList ∧ ∀ ch ∈ (toJson c).toList, isBlank ch = false) ∧
    (∀ text c, ofJson text = .ok c → ofJson (toJson c) = .ok c) ∧
    ∀ text text', (ofJson text).map toJson = .ok text' → (ofJson text').map toJson = .ok text' := by
  refine ⟨ofJson_toJson, fun c => ⟨spells_toJson c, not_isBlank_toJson c⟩,
    fun text c _ => ofJson_toJson c, fun text text' h => ?_⟩
  cases hread : ofJson text with
  | error fault =>
    rw [hread] at h
    cases h
  | ok c =>
    rw [hread] at h
    cases h
    rw [ofJson_toJson]
    rfl

/-- A list with a token in mixed case and the largest count. -/
theorem toJson_stable_lenient :
    let text := "[\"Max_norm\",18446744073709551615]"
    let text' := "\x7b\"norm\":\"MAX_NORM\",\"max_rows_for_fast\":18446744073709551615\x7d"
    let c : Config := ⟨.maxNorm, 18446744073709551615⟩
    ofJson text = .ok c ∧ ofJson (toJson c) = .ok c ∧
      (ofJson text).map toJson = .ok text' ∧ (ofJson text').map toJson = .ok text' := by
  intro text text' c
  have hread : ofJson text = .ok c := by decide +kernel
  have hwrite : (ofJson text).map toJson = .ok text' := by decide +kernel
  exact ⟨hread, toJson_stable.2.2.1 text c hread, hwrite, toJson_stable.2.2.2 text text' hwrite⟩

end Config

end Proximity
