import Proximity.Config.Basic
import Proximity.Json.Skip

/-!
# Configurations as JSON

A configuration is written as an object with the members `norm` and `max_rows_for_fast`.  It is read
from such an object, in which either member may be missing, the members may come in any order, and
members with other names are skipped; or from an array of the two values in this order, of which
trailing ones may be missing.  A missing value is that of the standard configuration.  Norms are
chosen from their token leniently.

## Main definitions

* `Config.toJson` : a configuration as JSON.
* `Config.ofJson` : reads a configuration.
-/

namespace Proximity

namespace Config

open Json

/-! ### Writing -/

/-- The name of a norm, each of its words with a capital. -/
def normName : NormMode → String
  | .euclidean => "Euclidean"
  | .euclideanNormalised => "EuclideanNormalised"
  | .maxNorm => "MaxNorm"

/-- A name in capitals, with underscores between its words. -/
def upperSnakeCase (name : String) : String :=
  String.ofList (name.toList.zipIdx.flatMap fun (c, i) =>
    if 0 < i ∧ c.isUpper then ['_', c] else [c.toUpper])

/-- A configuration as JSON, without white space. -/
def toJson (config : Config) : String :=
  "\x7b\"norm\":\"" ++ upperSnakeCase (normName config.norm) ++ "\",\"max_rows_for_fast\":" ++
    toString config.maxRowsForFast.toNat ++ "\x7d"

/-- Norms are written by their tokens. -/
theorem upperSnakeCase_normName (norm : NormMode) :
    upperSnakeCase (normName norm) = norm.token := by
  cases norm <;> decide

/-! ### Reading values -/

/-- The fault of a value that is not of the kind that is asked for.  A value without brackets is
read to its end first. -/
def wrongKind (s : List Char) : Fault :=
  match s with
  | [] => .truncated
  | c :: rest =>
    if c = '"' then faultOf (readText rest)
    else if c = '-' ∨ c.isDigit then faultOf (readNumber s)
    else if c = '[' ∨ c = '{' then .mismatch
    else faultOf (readConstant c rest)

/-- Reads the token of a norm. -/
def readNorm (s : List Char) : Reading NormMode :=
  match dropBlanks s with
  | '"' :: rest => (readText rest).map fun read => (.ofName (String.ofList read.1), read.2)
  | s => .error (wrongKind s)

/-- Reads a count. -/
def readCount (s : List Char) : Reading UInt64 :=
  match dropBlanks s with
  | [] => .error .truncated
  | c :: rest =>
    if c = '-' ∨ c.isDigit then
      match readNumber (c :: rest) with
      | .error fault => .error fault
      | .ok (n, rest) =>
        match n.count? with
        | some count => .ok (count, rest)
        | none => .error .mismatch
    else .error (wrongKind (c :: rest))

/-! ### Reading objects -/

/-- The members that have been read. -/
structure Members where
  /-- The norm. -/
  norm : Option NormMode := none
  /-- The number of rows up to which the fast search is used. -/
  maxRows : Option UInt64 := none

/-- The configuration with the given members. -/
def ofMembers (members : Members) : Config where
  norm := members.norm.getD standard.norm
  maxRowsForFast := members.maxRows.getD standard.maxRowsForFast

/-- Reads the colon behind a key. -/
def readColon (s : List Char) : Except Fault (List Char) :=
  match dropBlanks s with
  | [] => .error .truncated
  | ':' :: rest => .ok rest
  | _ => .error .malformed

/-- Reads the value of the member with the given key, from behind the key.  A member that has been
read before is a mismatch. -/
def readMemberValue (members : Members) (key : String) (s : List Char) : Reading Members :=
  if key = "norm" then
    if members.norm.isSome then .error .mismatch
    else match readColon s with
      | .error fault => .error fault
      | .ok s => (readNorm s).map fun read => ({ members with norm := some read.1 }, read.2)
  else if key = "max_rows_for_fast" then
    if members.maxRows.isSome then .error .mismatch
    else match readColon s with
      | .error fault => .error fault
      | .ok s => (readCount s).map fun read => ({ members with maxRows := some read.1 }, read.2)
  else
    match readColon s with
    | .error fault => .error fault
    | .ok s => (skipValue s).map fun rest => (members, rest)

/-- Reads a member. -/
def readMember (members : Members) (s : List Char) : Reading Members :=
  match dropBlanks s with
  | [] => .error .truncated
  | '"' :: rest =>
    match readText rest with
    | .error fault => .error fault
    | .ok (key, rest) => readMemberValue members (String.ofList key) rest
  | _ => .error .malformed

/-! ### Members go forward -/

theorem length_readNorm_le {s rest : List Char} {norm : NormMode}
    (h : readNorm s = .ok (norm, rest)) : rest.length ≤ s.length := by
  unfold readNorm at h
  have hb := length_dropBlanks_le s
  split at h
  · rename_i tail hs
    rw [hs] at hb
    cases hr : readText tail with
    | error fault => rw [hr] at h; cases h
    | ok read =>
      rw [hr] at h
      cases h
      have := length_readText_lt hr
      simp only [List.length_cons] at hb
      omega
  · cases h

theorem length_readCount_le {s rest : List Char} {count : UInt64}
    (h : readCount s = .ok (count, rest)) : rest.length ≤ s.length := by
  unfold readCount at h
  have hb := length_dropBlanks_le s
  split at h
  · cases h
  · rename_i c tail hs
    rw [hs] at hb
    split at h
    · split at h
      · cases h
      · rename_i n read hn
        have := length_readNumber_lt hn
        split at h <;> cases h
        omega
    · cases h

theorem length_readColon_le {s rest : List Char} (h : readColon s = .ok rest) :
    rest.length ≤ s.length := by
  unfold readColon at h
  have hb := length_dropBlanks_le s
  split at h
  · cases h
  · rename_i hs
    rw [hs] at hb
    cases h
    exact Nat.le_trans (Nat.le_succ _) hb
  · cases h

theorem length_readMemberValue_le {members next : Members} {key : String} {s rest : List Char}
    (h : readMemberValue members key s = .ok (next, rest)) : rest.length ≤ s.length := by
  unfold readMemberValue at h
  split at h
  · split at h
    · cases h
    · split at h
      · cases h
      · rename_i tail hc
        have := length_readColon_le hc
        cases hr : readNorm tail with
        | error fault => rw [hr] at h; cases h
        | ok read =>
          rw [hr] at h
          cases h
          exact Nat.le_trans (length_readNorm_le hr) this
  · split at h
    · split at h
      · cases h
      · split at h
        · cases h
        · rename_i tail hc
          have := length_readColon_le hc
          cases hr : readCount tail with
          | error fault => rw [hr] at h; cases h
          | ok read =>
            rw [hr] at h
            cases h
            exact Nat.le_trans (length_readCount_le hr) this
    · split at h
      · cases h
      · rename_i tail hc
        have := length_readColon_le hc
        cases hr : skipValue tail with
        | error fault => rw [hr] at h; cases h
        | ok read =>
          rw [hr] at h
          cases h
          exact Nat.le_trans (length_skipPending_le hr) this

theorem length_readMember_lt {members next : Members} {s rest : List Char}
    (h : readMember members s = .ok (next, rest)) : rest.length < s.length := by
  unfold readMember at h
  have hb := length_dropBlanks_le s
  split at h
  · cases h
  · rename_i tail hs
    rw [hs] at hb
    split at h
    · cases h
    · rename_i key rest' hr
      have := length_readText_lt hr
      have := length_readMemberValue_le h
      simp only [List.length_cons] at hb
      omega
  · cases h

/-- Reads the members of an object up to its end, at least one. -/
def readMembers (members : Members) (s : List Char) : Reading Members :=
  match h : readMember members s with
  | .error fault => .error fault
  | .ok (members, rest) =>
    match hb : dropBlanks rest with
    | [] => .error .truncated
    | '}' :: rest => .ok (members, rest)
    | ',' :: rest' =>
      have : rest'.length < s.length := by
        have h₁ := length_readMember_lt h
        have h₂ := length_dropBlanks_le rest
        rw [hb] at h₂
        simp only [List.length_cons] at h₂
        omega
      readMembers members rest'
    | _ => .error .malformed
termination_by s.length

/-- Reads an object, from behind its opening brace. -/
def readObject (s : List Char) : Reading Config :=
  match dropBlanks s with
  | '}' :: rest => .ok (standard, rest)
  | s => (readMembers {} s).map fun read => (ofMembers read.1, read.2)

/-! ### Reading arrays -/

/-- Reads the end of an array. -/
def readArrayEnd (config : Config) (s : List Char) : Reading Config :=
  match dropBlanks s with
  | [] => .error .truncated
  | ']' :: rest => .ok (config, rest)
  | _ => .error .malformed

/-- Reads an array behind its norm. -/
def readArrayRest (config : Config) (s : List Char) : Reading Config :=
  match dropBlanks s with
  | ',' :: rest =>
    match readCount rest with
    | .error fault => .error fault
    | .ok (maxRows, rest) => readArrayEnd (config.withMaxRows maxRows) rest
  | s => readArrayEnd config s

/-- Reads an array, from behind its opening bracket. -/
def readArray (s : List Char) : Reading Config :=
  match dropBlanks s with
  | ']' :: rest => .ok (standard, rest)
  | s =>
    match readNorm s with
    | .error fault => .error fault
    | .ok (norm, rest) => readArrayRest (standard.withNorm norm) rest

/-! ### Reading texts -/

/-- Reads an object or an array. -/
def readConfig (s : List Char) : Reading Config :=
  match dropBlanks s with
  | '{' :: rest => readObject rest
  | '[' :: rest => readArray rest
  | s => .error (wrongKind s)

/-- Reads a configuration that takes up the whole text. -/
def ofJson (text : String) : Except Fault Config :=
  match readConfig text.toList with
  | .error fault => .error fault
  | .ok (config, rest) => if dropBlanks rest = [] then .ok config else .error .malformed

end Config

end Proximity
