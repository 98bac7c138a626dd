import Packrat.Evaluation
import Packrat.Memo.Key

/-!
# Surveys

An evaluation read as a plain computation that lists the keys of the rules that it asks to be
settled. It keeps no table, so a rule that is asked for again is settled again.

* `Survey`: the keys asked for.
* `Surveyed`: plain evaluations with their surveys.
-/

namespace Packrat

/-- The keys of the rules that an evaluation asks to be settled. -/
structure Survey where
  /-- Those that it asks for itself, and not while it settles another one. -/
  direct : List Memo.Key
  /-- All of them. -/
  all : List Memo.Key
deriving DecidableEq

namespace Survey

/-- Nothing is asked for. -/
def empty : Survey := ⟨[], []⟩

/-- What is asked for by one evaluation and then by another. -/
def append (first second : Survey) : Survey :=
  ⟨first.direct ++ second.direct, first.all ++ second.all⟩

/-- A rule is asked for that asks for what `body` holds when it is settled. -/
def asking (key : Memo.Key) (body : Survey) : Survey := ⟨[key], key :: body.all⟩

end Survey

/-- A plain evaluation with the survey of it. -/
def Surveyed (α : Type) : Type := Except Fault (α × Survey)

namespace Surveyed

/-- One evaluation after another. -/
def bind {α β : Type} (x : Surveyed α) (f : α → Surveyed β) : Surveyed β :=
  match x with
  | .error e => .error e
  | .ok (a, first) =>
    match f a with
    | .error e => .error e
    | .ok (b, second) => .ok (b, first.append second)

/-- Settles a rule, and takes note that it was asked for. -/
def settle (key : Memo.Key) (body : Surveyed Resolution) : Surveyed Resolution :=
  match body with
  | .error e => .error e
  | .ok (resolution, survey) => .ok (resolution, .asking key survey)

instance : Matching Surveyed where
  pure a := .ok (a, .empty)
  bind := bind
  fault e := .error e
  tried _ _ := .ok ((), .empty)
  reach _ := .ok ((), .empty)
  settling := settle

end Surveyed

end Packrat
