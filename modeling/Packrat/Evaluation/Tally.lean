import Mathlib.Data.Multiset.AddSub
import Packrat.Evaluation
import Packrat.Memo.Key

/-!
# Tallies

An evaluation read as a computation of which only the sum is kept: how far any failure got, and
which rules were asked for how often. In what order does not show, nor with which fault it was
given up.

* `Tally`: what an evaluation adds up to.
* `Tallied`: evaluations with their tallies.
-/

namespace Packrat

/-- What an evaluation adds up to. -/
@[ext]
structure Tally where
  /-- The farthest offset that a failure got to. -/
  reach : Nat
  /-- The keys of the rules that it asks for itself. -/
  direct : Multiset Memo.Key
  /-- The keys of all rules that it asks for. -/
  all : Multiset Memo.Key

namespace Tally

/-- Nothing was done. -/
def empty : Tally := ⟨0, 0, 0⟩

/-- What two evaluations add up to. -/
def add (first second : Tally) : Tally :=
  ⟨max first.reach second.reach, first.direct + second.direct, first.all + second.all⟩

/-- A rule is asked for that adds up to `body` when it is settled. -/
def asking (key : Memo.Key) (body : Tally) : Tally :=
  ⟨max key.offset body.reach, {key}, key ::ₘ body.all⟩

end Tally

/-- An evaluation of which only the value and the sum are kept. -/
inductive Tallied (α : Type) where
  | gaveUp
  | done (value : α) (tally : Tally)

namespace Tallied

/-- One evaluation after another. -/
def bind {α β : Type} (x : Tallied α) (f : α → Tallied β) : Tallied β :=
  match x with
  | gaveUp => gaveUp
  | done a first =>
    match f a with
    | gaveUp => gaveUp
    | done b second => done b (first.add second)

/-- Settles a rule, and takes note that it was asked for. -/
def settle (key : Memo.Key) (body : Tallied Resolution) : Tallied Resolution :=
  match body with
  | gaveUp => gaveUp
  | done resolution tally => done resolution (.asking key tally)

instance : Matching Tallied where
  pure a := done a .empty
  bind := bind
  fault _ := gaveUp
  tried _ _ := done () .empty
  reach index := done () ⟨index, 0, 0⟩
  settling := settle

end Tallied

end Packrat
