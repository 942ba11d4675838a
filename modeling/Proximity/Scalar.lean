/-!
# Scalars

Distances are binary64 numbers.  This file fixes the few conventions that the rest of the library
shares: how two numbers are compared when one of them may be a NaN, and how a count becomes a
number.

## Main definitions

* `infinity` : the distance to nothing, above every finite distance.
* `smaller`, `larger` : the smaller and the larger of two numbers, where a NaN gives way to the
  other operand.
* `ofCount` : a count as a number.
-/

namespace Proximity

namespace Scalar

/-- Positive infinity. -/
def infinity : Float := Float.ofBits 0x7FF0000000000000

/-- The smaller of two numbers; a NaN gives way to the other operand. -/
def smaller (a b : Float) : Float := if b < a || a.isNaN then b else a

/-- The larger of two numbers; a NaN gives way to the other operand. -/
def larger (a b : Float) : Float := if a < b || a.isNaN then b else a

/-- The number nearest to a count.  Counts from `2 ^ 64` on are taken as `2 ^ 64`, so that the
result is always finite. -/
def ofCount (n : Nat) : Float := (UInt64.ofNatClamp n).toFloat

@[simp] theorem isNaN_infinity : infinity.isNaN = false := by decide

theorem smaller_eq_left {a b : Float} (ha : a.isNaN = false) (h : ¬ b < a) : smaller a b = a := by
  rw [smaller, ha, Bool.or_false, if_neg (by rwa [decide_eq_true_eq])]

theorem smaller_eq_right {a b : Float} (h : b < a) : smaller a b = b := by
  rw [smaller, decide_eq_true h, Bool.true_or, if_pos rfl]

end Scalar

end Proximity
