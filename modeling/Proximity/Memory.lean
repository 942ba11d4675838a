/-!
# Memory

What a computation keeps lies in vectors.  A vector has at most `maxBytes` bytes, however much
memory there is, and a request for a larger one is refused.  A request within this limit is taken to
be granted: memory that a machine has not got is not part of the library.

## Main definitions

* `maxBytes` : the limit.
* `Request`, `Request.Granted` : a request for a vector.
-/

namespace Proximity

/-- The largest number of bytes of a vector: distances within it are signed words of 64 bits. -/
def maxBytes : Nat := 9223372036854775807

/-- A request for a vector. -/
structure Request where
  /-- The number of items. -/
  count : Nat
  /-- The number of bytes of an item. -/
  bytes : Nat
  deriving DecidableEq, Repr

/-- The vector is within the limit. -/
def Request.Granted (request : Request) : Prop := request.count * request.bytes ≤ maxBytes

instance (request : Request) : Decidable request.Granted :=
  inferInstanceAs (Decidable (request.count * request.bytes ≤ maxBytes))

end Proximity
