import Packrat.Evaluation

/-!
# Traces

An evaluation read as a plain computation that does nothing but list the attempts that its
primitives made, in order.

* `Traced`: evaluations with their attempts.
* `Tried.FailedAt`: an attempt that was made at an offset, and failed.
-/

namespace Packrat

/-- An attempt of a primitive: the offset that it was made at, and what came of it. -/
structure Tried where
  offset : Nat
  outcome : Outcome
deriving DecidableEq

/-- The attempt was made at `offset`, and failed. -/
def Tried.FailedAt (offset : Nat) (tried : Tried) : Prop :=
  tried.offset = offset ∧ tried.outcome.span? = none

/-- A plain evaluation, with the attempts made so far as its state. -/
abbrev Traced : Type → Type := StateT (List Tried) (Except Fault)

instance : Matching Traced where
  fault e := fun _ => .error e
  tried offset outcome := modify (· ++ [⟨offset, outcome⟩])
  reach _ := pure ()
  settling _ body := body

end Packrat
