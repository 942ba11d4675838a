import Proximity.Config.Json
import Proximity.Proofs.Json.Grammar

/-!
# Which values are configurations

What a value of JSON says as a configuration, said without a reader.  A field is given by at most
one value, which has to be of its kind; the fields are found by their names in an object, and by
their places in a list.

* `Given` : a value that is missing or there once; `Represents` : **the configuration of a value**.
* `HasFields`, `SameFields` : the fields of a value, and values that agree in them;
  `SameFields.represents_iff` : nothing else counts.
* `Fills`, `Filled` : how the members of an object fill the fields one after the other, from fields
  that may be filled already; `filled_append`, `represents_object_iff` : what this has to do with
  the configuration.
-/

namespace Proximity

namespace Config

open Json

/-! ### What values mean -/

variable {α : Type} {means : Value → α → Prop}

/-- The value is a name, by which the norm is chosen. -/
def NamesNorm (v : Value) (norm : NormMode) : Prop := ∃ name, v = .text name ∧ norm = .ofName name

/-- The value is the decimal notation of a count. -/
def IsCount (v : Value) (n : UInt64) : Prop := v = .count n

/-- There is no value, or there is one and it means the given thing. -/
inductive Given (means : Value → α → Prop) : List Value → Option α → Prop where
  /-- There is no value. -/
  | absent : Given means [] none
  /-- There is one value. -/
  | present {v : Value} {a : α} (h : means v a) : Given means [v] (some a)

/-- The names of the fields of a configuration, in order. -/
def fieldNames : List String := ["norm", "max_rows_for_fast"]

/-- The values of the members with the given name, in order. -/
def valuesOf (name : String) (entries : List (String × Value)) : List Value :=
  (entries.filter (·.1 = name)).map Prod.snd

/-- The value represents the configuration. -/
inductive Represents : Value → Config → Prop where
  /-- In an object, a field is found by its name. -/
  | object {entries : List (String × Value)} {norm : Option NormMode} {maxRows : Option UInt64}
      (hnorm : Given NamesNorm (valuesOf "norm" entries) norm)
      (hmaxRows : Given IsCount (valuesOf "max_rows_for_fast" entries) maxRows) :
      Represents (.object entries) (ofMembers ⟨norm, maxRows⟩)
  /-- In a list, the fields stand in order. -/
  | list {items : List Value} {norm : Option NormMode} {maxRows : Option UInt64}
      (hnorm : Given NamesNorm (items.take 1) norm)
      (hmaxRows : Given IsCount (items.drop 1) maxRows) :
      Represents (.list items) (ofMembers ⟨norm, maxRows⟩)

/-- The values of the fields of a value, with their names. -/
inductive HasFields : Value → List (String × Value) → Prop where
  /-- The members of an object that have the name of a field. -/
  | object (entries : List (String × Value)) :
      HasFields (.object entries) (entries.filter (·.1 ∈ fieldNames))
  /-- The items of a list that is not too long. -/
  | list {items : List Value} (h : items.length ≤ fieldNames.length) :
      HasFields (.list items) (fieldNames.zip items)

/-- The values have the same fields, in any order. -/
def SameFields (v v' : Value) : Prop :=
  ∃ fields fields', HasFields v fields ∧ HasFields v' fields' ∧ fields.Perm fields'

/-! ### Values of a field -/

@[simp] theorem given_nil_iff {o : Option α} : Given means [] o ↔ o = none := by
  constructor
  · rintro ⟨⟩
    rfl
  · rintro rfl
    exact .absent

@[simp] theorem given_singleton_iff {v : Value} {o : Option α} :
    Given means [v] o ↔ ∃ a, means v a ∧ o = some a := by
  constructor
  · rintro ⟨⟩
    exact ⟨_, ‹_›, rfl⟩
  · rintro ⟨a, h, rfl⟩
    exact .present h

@[simp] theorem not_given_cons_cons {v w : Value} {values : List Value} {o : Option α} :
    ¬ Given means (v :: w :: values) o := by
  rintro ⟨⟩

/-- One value has only one order. -/
theorem Given.perm {values values' : List Value} {o : Option α} (h : Given means values o)
    (hperm : values.Perm values') : Given means values' o := by
  cases h with
  | absent => rw [List.nil_perm.1 hperm]; exact .absent
  | present h => rw [← List.singleton_perm.1 hperm]; exact .present h

theorem valuesOf_filter {name : String} (h : name ∈ fieldNames) (entries : List (String × Value)) :
    valuesOf name (entries.filter (·.1 ∈ fieldNames)) = valuesOf name entries := by
  rw [valuesOf, valuesOf, List.filter_filter]
  congr 2
  funext entry
  by_cases hname : entry.1 = name <;> simp [hname, h]

/-! ### Fields -/

/-- **Only the fields count**, and a list is an object without the names. -/
theorem HasFields.represents_iff {v : Value} {fields : List (String × Value)}
    (h : HasFields v fields) (c : Config) : Represents v c ↔ Represents (.object fields) c := by
  cases h with
  | object entries =>
    have hnorms := valuesOf_filter (show "norm" ∈ fieldNames by decide) entries
    have hcounts := valuesOf_filter (show "max_rows_for_fast" ∈ fieldNames by decide) entries
    constructor
    · rintro ⟨hnorm, hmaxRows⟩
      exact .object (hnorms ▸ hnorm) (hcounts ▸ hmaxRows)
    · rintro ⟨hnorm, hmaxRows⟩
      exact .object (hnorms ▸ hnorm) (hcounts ▸ hmaxRows)
  | @list items hlen =>
    have hvalues : valuesOf "norm" (fieldNames.zip items) = items.take 1 ∧
        valuesOf "max_rows_for_fast" (fieldNames.zip items) = items.drop 1 := by
      match items, hlen with
      | [], _ => exact ⟨rfl, rfl⟩
      | [v], _ => exact ⟨rfl, rfl⟩
      | [v, w], _ => exact ⟨rfl, rfl⟩
    constructor
    · rintro ⟨⟩
      rename_i hnorm hmaxRows
      exact .object (hvalues.1 ▸ hnorm) (hvalues.2 ▸ hmaxRows)
    · rintro ⟨hnorm, hmaxRows⟩
      exact .list (hvalues.1 ▸ hnorm) (hvalues.2 ▸ hmaxRows)

/-- The order of the fields does not count. -/
theorem represents_of_perm {fields fields' : List (String × Value)} (h : fields.Perm fields')
    {c : Config} (hc : Represents (.object fields) c) : Represents (.object fields') c := by
  have hvalues (name : String) : (valuesOf name fields).Perm (valuesOf name fields') :=
    (h.filter _).map _
  obtain ⟨hnorm, hmaxRows⟩ := hc
  exact .object (hnorm.perm (hvalues _)) (hmaxRows.perm (hvalues _))

/-- **Values with the same fields** represent the same configuration. -/
theorem SameFields.represents_iff {v v' : Value} (h : SameFields v v') (c : Config) :
    Represents v c ↔ Represents v' c := by
  obtain ⟨fields, fields', hv, hv', hperm⟩ := h
  rw [hv.represents_iff, hv'.represents_iff]
  exact ⟨represents_of_perm hperm, represents_of_perm hperm.symm⟩

/-! ### Filling fields -/

/-- The values fill a field that may be filled already: each of them finds it empty. -/
def Fills (means : Value → α → Prop) : Option α → List Value → Option α → Prop
  | old, [], new => new = old
  | old, v :: values, new => old = none ∧ ∃ a, means v a ∧ Fills means (some a) values new

theorem fills_append (values values' : List Value) (old new : Option α) :
    Fills means old (values ++ values') new ↔
      ∃ mid, Fills means old values mid ∧ Fills means mid values' new := by
  induction values generalizing old with
  | nil => simp [Fills]
  | cons v values ih =>
    simp only [List.cons_append, Fills, ih]
    constructor
    · rintro ⟨hold, a, ha, mid, hmid, hnew⟩
      exact ⟨mid, ⟨hold, a, ha, hmid⟩, hnew⟩
    · rintro ⟨mid, ⟨hold, a, ha, hmid⟩, hnew⟩
      exact ⟨hold, a, ha, mid, hmid, hnew⟩

/-- A field that is empty is filled by at most one value. -/
theorem fills_none_iff (values : List Value) (new : Option α) :
    Fills means none values new ↔ Given means values new := by
  match values with
  | [] => simp [Fills]
  | [v] => simp [Fills]
  | v :: w :: values => simp [Fills]

/-- The entries fill both fields. -/
structure Filled (members : Members) (entries : List (String × Value)) (next : Members) : Prop where
  /-- The norm is filled. -/
  norm : Fills NamesNorm members.norm (valuesOf "norm" entries) next.norm
  /-- The number of rows is filled. -/
  maxRows : Fills IsCount members.maxRows (valuesOf "max_rows_for_fast" entries) next.maxRows

theorem valuesOf_append (name : String) (entries entries' : List (String × Value)) :
    valuesOf name (entries ++ entries') = valuesOf name entries ++ valuesOf name entries' := by
  simp only [valuesOf, List.filter_append, List.map_append]

theorem filled_append (members next : Members) (entries entries' : List (String × Value)) :
    Filled members (entries ++ entries') next ↔
      ∃ mid, Filled members entries mid ∧ Filled mid entries' next := by
  constructor
  · rintro ⟨hnorm, hmaxRows⟩
    rw [valuesOf_append, fills_append] at hnorm hmaxRows
    obtain ⟨norm, hnorm, hnorm'⟩ := hnorm
    obtain ⟨maxRows, hmaxRows, hmaxRows'⟩ := hmaxRows
    exact ⟨⟨norm, maxRows⟩, ⟨hnorm, hmaxRows⟩, ⟨hnorm', hmaxRows'⟩⟩
  · rintro ⟨mid, ⟨hnorm, hmaxRows⟩, ⟨hnorm', hmaxRows'⟩⟩
    refine ⟨?_, ?_⟩
    · rw [valuesOf_append, fills_append]
      exact ⟨mid.norm, hnorm, hnorm'⟩
    · rw [valuesOf_append, fills_append]
      exact ⟨mid.maxRows, hmaxRows, hmaxRows'⟩

theorem members_ext {members members' : Members} (hnorm : members.norm = members'.norm)
    (hmaxRows : members.maxRows = members'.maxRows) : members = members' := by
  cases members
  cases members'
  cases hnorm
  cases hmaxRows
  rfl

theorem filled_nil_iff {members next : Members} : Filled members [] next ↔ next = members := by
  constructor
  · rintro ⟨hnorm, hmaxRows⟩
    exact members_ext hnorm hmaxRows
  · rintro rfl
    exact ⟨rfl, rfl⟩

/-- A member whose key names a field fills it. -/
theorem filled_norm_iff {members next : Members} {v : Value} :
    Filled members [("norm", v)] next ↔
      members.norm = none ∧
        ∃ norm, NamesNorm v norm ∧ next = { members with norm := some norm } := by
  constructor
  · rintro ⟨⟨hfree, norm, hv, hnorm⟩, hmaxRows⟩
    exact ⟨hfree, norm, hv, members_ext hnorm hmaxRows⟩
  · rintro ⟨hfree, norm, hv, rfl⟩
    exact ⟨⟨hfree, norm, hv, rfl⟩, rfl⟩

theorem filled_maxRows_iff {members next : Members} {v : Value} :
    Filled members [("max_rows_for_fast", v)] next ↔
      members.maxRows = none ∧
        ∃ n, IsCount v n ∧ next = { members with maxRows := some n } := by
  constructor
  · rintro ⟨hnorm, ⟨hfree, n, hv, hmaxRows⟩⟩
    exact ⟨hfree, n, hv, members_ext hnorm hmaxRows⟩
  · rintro ⟨hfree, n, hv, rfl⟩
    exact ⟨rfl, ⟨hfree, n, hv, rfl⟩⟩

/-- A member with another key fills nothing. -/
theorem filled_other_iff {members next : Members} {key : String} {v : Value}
    (hnorm : key ≠ "norm") (hmaxRows : key ≠ "max_rows_for_fast") :
    Filled members [(key, v)] next ↔ next = members := by
  have hvalues (name : String) (hname : key ≠ name) :
      valuesOf name [(key, v)] = valuesOf name [] := by
    simp [valuesOf, hname]
  rw [← filled_nil_iff]
  constructor
  · rintro ⟨hold, hold'⟩
    exact ⟨hvalues _ hnorm ▸ hold, hvalues _ hmaxRows ▸ hold'⟩
  · rintro ⟨hold, hold'⟩
    exact ⟨hvalues _ hnorm ▸ hold, hvalues _ hmaxRows ▸ hold'⟩

/-! ### Objects and lists -/

theorem represents_object_iff {entries : List (String × Value)} {c : Config} :
    Represents (.object entries) c ↔
      ∃ members, Filled {} entries members ∧ c = ofMembers members := by
  constructor
  · rintro ⟨hnorm, hmaxRows⟩
    exact ⟨⟨_, _⟩, ⟨(fills_none_iff _ _).2 hnorm, (fills_none_iff _ _).2 hmaxRows⟩, rfl⟩
  · rintro ⟨⟨norm, maxRows⟩, ⟨hnorm, hmaxRows⟩, rfl⟩
    exact .object ((fills_none_iff _ _).1 hnorm) ((fills_none_iff _ _).1 hmaxRows)

theorem represents_list_nil_iff {c : Config} : Represents (.list []) c ↔ c = standard := by
  constructor
  · rintro ⟨⟩
    rename_i hnorm hmaxRows
    rw [given_nil_iff.1 hnorm, given_nil_iff.1 hmaxRows]
    rfl
  · rintro rfl
    change Represents (.list []) (ofMembers ⟨none, none⟩)
    exact .list .absent .absent

theorem represents_list_cons_iff {v : Value} {values : List Value} {c : Config} :
    Represents (.list (v :: values)) c ↔ ∃ norm, NamesNorm v norm ∧
      ∃ maxRows, Given IsCount values maxRows ∧ c = ofMembers ⟨some norm, maxRows⟩ := by
  constructor
  · rintro ⟨⟩
    rename_i hnorm hmaxRows
    obtain ⟨norm, hv, rfl⟩ := given_singleton_iff.1 hnorm
    exact ⟨norm, hv, _, hmaxRows, rfl⟩
  · rintro ⟨norm, hv, maxRows, hmaxRows, rfl⟩
    exact .list (given_singleton_iff.2 ⟨norm, hv, rfl⟩) hmaxRows

theorem given_isCount_cons_iff {v : Value} {values : List Value} {o : Option UInt64} :
    Given IsCount (v :: values) o ↔ ∃ n, (IsCount v n ∧ values = []) ∧ o = some n := by
  cases values <;> simp

end Config

end Proximity
