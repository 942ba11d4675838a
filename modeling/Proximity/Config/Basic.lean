import Proximity.Norm.Mode
import Proximity.Search.Algorithm

/-!
# Configurations

A configuration says which norm is used and up to how many rows the fast search is used.  It is a
plain value: changing one field gives another configuration and leaves the other field alone.
-/

namespace Proximity

/-- The norm, and the largest number of rows for the fast search. -/
structure Config where
  /-- The norm of every distance. -/
  norm : NormMode := .euclidean
  /-- The number of rows up to which the fast search is used. -/
  maxRowsForFast : UInt64 := 2000
  deriving DecidableEq, Repr

namespace Config

/-- The Euclidean norm, and the fast search up to 2000 rows. -/
def standard : Config := {}

instance : Inhabited Config := ⟨standard⟩

/-- The same configuration with another norm. -/
def withNorm (config : Config) (norm : NormMode) : Config := { config with norm }

/-- The same configuration with another number of rows for the fast search. -/
def withMaxRows (config : Config) (maxRowsForFast : UInt64) : Config :=
  { config with maxRowsForFast }

/-- The search that finds the minimum distances of the given number of rows. -/
def algorithmFor (config : Config) (rows : Nat) : Algorithm :=
  .select rows config.maxRowsForFast

end Config

end Proximity
