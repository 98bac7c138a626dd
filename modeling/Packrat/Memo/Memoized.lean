import Packrat.Memo.Table

/-!
# Evaluation with a table

An evaluation read as a computation with a memo table: a rule that was settled before, at the
same offset and in the same mode, is found in the table; any other is settled and recorded.

* `Memoized`: computations with a table.
* `Evaluation.run`: runs an evaluation with a table, if there is one, or plainly.
-/

namespace Packrat

/-- What an evaluation with a table carries along: the farthest failure so far, and the table. -/
structure Progress where
  farthest : Nat
  table : Memo.Table

/-- An evaluation with a memo table. -/
abbrev Memoized : Type → Type := StateT Progress (Except Fault)

namespace Memoized

/-- Finds a settled rule in the table, or settles it and records it. A rule that is found counts
for as far as its failures got when it was settled. -/
def settle (key : Memo.Key) (body : Memoized Resolution) : Memoized Resolution := fun outer =>
  match outer.table.lookup? key with
  | some (entry, table) => .ok (entry.value, ⟨max outer.farthest entry.farthest, table⟩)
  | none =>
    match body ⟨key.offset, outer.table⟩ with
    | .error e => .error e
    | .ok (resolution, inner) =>
      .ok (resolution, ⟨max outer.farthest inner.farthest,
        inner.table.record key ⟨resolution, inner.farthest⟩⟩)

instance : Matching Memoized where
  fault e := fun _ => .error e
  tried _ _ := pure ()
  reach index := modify fun progress => { progress with farthest := max progress.farthest index }
  settling := settle

end Memoized

/-- An evaluation that can be read in any way. -/
abbrev Evaluation (α : Type) : Type 1 := ∀ {m : Type → Type} [Matching m], m α

/-- Runs an evaluation with a table, if there is one, or plainly. Failures count from `start`. -/
@[inline]
def Evaluation.run {α : Type} (evaluation : Evaluation α) (start : Nat)
    (table? : Option Memo.Table) : Except Fault (Reached α × Option Memo.Table) :=
  match table? with
  | none =>
    match (evaluation : Attempt α) start with
    | .error e => .error e
    | .ok (value, farthest) => .ok (⟨value, farthest⟩, none)
  | some table =>
    match (evaluation : Memoized α) ⟨start, table⟩ with
    | .error e => .error e
    | .ok (value, progress) => .ok (⟨value, progress.farthest⟩, some progress.table)

end Packrat
