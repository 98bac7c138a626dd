import Packrat.Span

/-!
# Outcomes

What comes of one attempt to match at an offset: the span taken, or the offset at which no
way forward was left.

* `NoMatch.deeper`: of two failures the one further into the text.
-/

namespace Packrat

/-- A failed match, with the offset that it got to. -/
structure NoMatch where
  index : Nat
deriving DecidableEq

namespace NoMatch

/-- Of two failures the one that got further into the text; the first, if they are level. -/
def deeper (failure other : NoMatch) : NoMatch :=
  if failure.index < other.index then other else failure

/-- What is said of a failure. -/
def message (failure : NoMatch) : String := s!"no match at index {failure.index}"

@[simp] theorem index_deeper (failure other : NoMatch) :
    (failure.deeper other).index = max failure.index other.index := by
  unfold deeper; split <;> omega

end NoMatch

/-- The result of one attempt to match. -/
inductive Outcome where
  | matched (span : Span)
  | noMatch (failure : NoMatch)
deriving DecidableEq

namespace Outcome

/-- A match of the characters from `start` up to `stop`. -/
abbrev ofBounds (start stop : Nat) : Outcome := .matched ⟨start, stop⟩

/-- A failure at `index`. -/
abbrev noMatchAt (index : Nat) : Outcome := .noMatch ⟨index⟩

/-- The span of a match, if it is one. -/
def span? : Outcome → Option Span
  | .matched span => some span
  | .noMatch _ => none

end Outcome

end Packrat
