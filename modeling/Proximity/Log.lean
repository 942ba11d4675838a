import Proximity.Norm.Mode
import Proximity.Search.Algorithm

/-!
# The log

A computation may report what it does.  Its reports are part of its value: a `Logged` result comes
with the events that led to it, oldest first, and sequencing two computations concatenates their
events.

## Main definitions

* `Event` : what can be reported.
* `Logged` : a result with its events.
-/

namespace Proximity

/-- A report. -/
inductive Event where
  /-- Minimum distances are asked for, and the search is chosen.  Nothing is checked yet. -/
  | searchChosen (rows : Nat) (maxRows : UInt64) (mode : NormMode) (algorithm : Algorithm)
  /-- The fast search has its table. -/
  | tableAllocated (rows cells : Nat)
  deriving DecidableEq, Repr

namespace Event

/-- The severity of a report. -/
def level : Event → String
  | searchChosen .. => "DEBUG"
  | tableAllocated .. => "TRACE"

/-- The text of a report. -/
def message : Event → String
  | searchChosen .. => "Computing minimum distances"
  | tableAllocated .. => "Allocated pair cache"

end Event

/-- A result and the events that led to it, oldest first. -/
structure Logged (α : Type) where
  /-- The events. -/
  events : List Event
  /-- The result. -/
  result : α

namespace Logged

variable {α β : Type}

/-- A result without events. -/
def silent (result : α) : Logged α := ⟨[], result⟩

/-- Goes on with the result of a computation. -/
def andThen (first : Logged α) (next : α → Logged β) : Logged β :=
  let second := next first.result
  ⟨first.events ++ second.events, second.result⟩

/-- Changes the result and keeps the events. -/
def map (f : α → β) (logged : Logged α) : Logged β := ⟨logged.events, f logged.result⟩

/-- Puts one event before the others. -/
def report (event : Event) (logged : Logged α) : Logged α := ⟨event :: logged.events, logged.result⟩

end Logged

end Proximity
