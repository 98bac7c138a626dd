import Packrat.Evaluation

/-!
# Plain evaluation

An evaluation read as a plain computation: it has a value, or a fault, and carries along the
farthest offset that any failure got to, whatever became of that failure.

* `Attempt`: plain evaluations. While a rule is settled the farthest failure is counted from the
  offset of the rule on; afterwards it counts with what was there before.
* `Reached`: a value with the farthest failure on the way to it.
* `Reached.report`: the outcome as it is reported, with the farthest failure.
-/

namespace Packrat

/-- A value, and the farthest offset that a failure got to on the way to it. -/
structure Reached (α : Type) where
  value : α
  farthest : Nat
deriving DecidableEq

/-- A plain evaluation, with the farthest failure so far as its state. -/
abbrev Attempt : Type → Type := StateT Nat (Except Fault)

namespace Attempt

/-- Settles a rule at an offset, with the farthest failure counted from there on. -/
def settle (offset : Nat) (body : Attempt Resolution) : Attempt Resolution := fun outer =>
  match body offset with
  | .error e => .error e
  | .ok (resolution, farthest) => .ok (resolution, max outer farthest)

instance : Matching Attempt where
  fault e := fun _ => .error e
  tried _ _ := pure ()
  reach index := modify (max · index)
  settling key body := settle key.offset body

end Attempt

/-- A match as it is; a failure at the farthest offset that any failure got to. -/
def Reached.report (r : Reached Outcome) : Outcome :=
  match r.value with
  | .matched span => .matched span
  | .noMatch failure => .noMatch (failure.deeper ⟨r.farthest⟩)

end Packrat
