import Mathlib.Data.List.Basic
import Proximity.Memory
import Proximity.PartialDistance

/-!
# Computations with guarded accesses

The library reads rows, components and cells through total functions, which answer something even
for an index out of range, and take the room for their results for granted.  A *guarded* computation
makes the same accesses one by one and asks for the same memory.  It gives up at the first access
that is out of range, at an assertion that does not hold, at an index that is no machine word, or at
a request that is refused.  It is a computation in `Option`, and `none` stands for having given up.
A guarded computation that is `some` of the total one never reads a default.

* `foldlM_eq_some`, `mapM_eq_some` : a loop is not left early if no step is.
* `word?` : an index that is computed.
* `Request.ask?`, `AllGranted` : one request for memory, and several.
* `PartialDistance.resume?` : the fold of the differences of two rows, component by component.
* `PartialDistance.resume?_eq_some` : **rows of one length are folded within their range**.
* `Norm.distance?` : a distance, with the lengths of the vectors asserted.
-/

namespace Proximity

/-! ### Loops -/

section Loops

variable {α β : Type}

/-- A loop whose steps keep an invariant, and are not left under it, is not left. -/
theorem foldlM_eq_some {f : β → α → Option β} {g : β → α → β} (invariant : β → Prop) {l : List α}
    {b : β} (hb : invariant b)
    (h : ∀ b, invariant b → ∀ a ∈ l, f b a = some (g b a) ∧ invariant (g b a)) :
    l.foldlM f b = some (l.foldl g b) ∧ invariant (l.foldl g b) := by
  induction l generalizing b with
  | nil => exact ⟨rfl, hb⟩
  | cons a l ih =>
    obtain ⟨hstep, hnext⟩ := h b hb a List.mem_cons_self
    rw [List.foldlM_cons, hstep]
    exact ih hnext fun b hb a ha => h b hb a (List.mem_cons_of_mem _ ha)

theorem mapM_eq_some {f : α → Option β} {g : α → β} {l : List α} (h : ∀ a ∈ l, f a = some (g a)) :
    l.mapM f = some (l.map g) := by
  induction l with
  | nil => rfl
  | cons a l ih =>
    rw [List.mapM_cons, h a List.mem_cons_self, ih fun a ha => h a (List.mem_cons_of_mem _ ha)]
    rfl

end Loops

/-- An index that is computed has to be a machine word. -/
def word? (n : ℕ) : Option ℕ := if n < UInt64.size then some n else none

theorem word?_eq_some {n : ℕ} (h : n < UInt64.size) : word? n = some n := if_pos h

theorem word?_eq_none_or_eq_some (n : ℕ) : word? n = none ∨ word? n = some n := by
  unfold word?
  split_ifs
  · exact .inr rfl
  · exact .inl rfl

/-! ### Memory -/

/-- Memory that is asked for has to be granted. -/
def Request.ask? (request : Request) : Option Unit := if request.Granted then some () else none

/-- What comes after a request is reached if it is granted. -/
theorem Request.ask?_bind {α : Type} (request : Request) (x : Option α) :
    (request.ask? >>= fun _ => x) = if request.Granted then x else none := by
  unfold ask?
  split_ifs <;> rfl

/-- A request for no more than a granted one is granted. -/
theorem Request.Granted.mono {count count' bytes bytes' : ℕ} (h : (Request.mk count bytes).Granted)
    (hcount : count' ≤ count) (hbytes : bytes' ≤ bytes) : (Request.mk count' bytes').Granted :=
  Nat.le_trans (Nat.mul_le_mul hcount hbytes) h

/-- No request is refused. -/
def AllGranted (requests : List Request) : Prop := ∀ request ∈ requests, request.Granted

instance (requests : List Request) : Decidable (AllGranted requests) :=
  inferInstanceAs (Decidable (∀ request ∈ requests, request.Granted))

@[simp] theorem allGranted_nil : AllGranted [] := List.forall_mem_nil _

@[simp] theorem allGranted_cons {request : Request} {requests : List Request} :
    AllGranted (request :: requests) ↔ request.Granted ∧ AllGranted requests :=
  List.forall_mem_cons

/-! ### Two rows -/

namespace PartialDistance

/-- Goes on with the fold over the rows `x` and `y` while the accumulator is below the bound and `x`
has components left.  Nothing but the read itself checks that `y` has them, too. -/
def resume? (norm : Norm) (x y : List Float) (bound : Float) (cell : PartialDistance) :
    Option PartialDistance :=
  if cell.value < bound ∧ cell.progress < x.length then do
    let a ← x[cell.progress]?
    let b ← y[cell.progress]?
    resume? norm x y bound ⟨norm.accumulate cell.value (a - b), cell.progress + 1⟩
  else some cell
termination_by x.length - cell.progress

variable {norm : Norm} {x y : List Float} {bound : Float} {cell : PartialDistance}

/-- A fold below its bound takes the next component. -/
theorem resume_of_lt (hvalue : cell.value < bound) (hx : cell.progress < x.length)
    (hy : cell.progress < y.length) :
    cell.resume norm x y bound =
      resume norm x y bound
        ⟨norm.accumulate cell.value (x[cell.progress] - y[cell.progress]), cell.progress + 1⟩ := by
  rw [resume, List.drop_eq_getElem_cons hx, List.drop_eq_getElem_cons hy, extend, if_pos hvalue]
  rfl

/-- **Rows of one length are folded within their range.** -/
theorem resume?_eq_some (hlen : x.length = y.length) :
    cell.resume? norm x y bound = some (cell.resume norm x y bound) := by
  fun_induction resume? norm x y bound cell with
  | case1 cell hgo ih =>
    obtain ⟨hvalue, hx⟩ := hgo
    have hy : cell.progress < y.length := hlen ▸ hx
    rw [List.getElem?_eq_getElem hx, List.getElem?_eq_getElem hy]
    exact (ih _ _).trans (congrArg some (resume_of_lt hvalue hx hy).symm)
  | case2 cell hstop =>
    rw [not_and_or] at hstop
    rcases hstop with hvalue | hx
    · rw [resume, extend_of_not_lt _ _ hvalue]
    · rw [resume, List.drop_eq_nil_of_le (Nat.le_of_not_lt hx)]
      rfl

end PartialDistance

/-- The distance of two vectors, whose lengths are asserted to be equal. -/
def Norm.distance? (norm : Norm) (a b : List Float) : Option Float :=
  if a.length = b.length then some (norm.distance a b) else none

theorem Norm.distance?_eq_some (norm : Norm) {a b : List Float} (h : a.length = b.length) :
    norm.distance? a b = some (norm.distance a b) := if_pos h

end Proximity
