import Packrat.Mode
import Packrat.Outcome

/-!
# Choosing between alternatives

A rule with several alternatives settles on one of them, by one of two policies.

* `orderedChoice`: the first alternative that matches wins, and later ones are not tried.
* `longestMatch`: every alternative is tried; the one that reaches furthest wins, and among
  those that reach equally far the first one.
* `resolve`: the policy that belongs to a mode.

When no alternative matches, both policies report the deepest failure. The attempts may have
effects of any kind `m`, so the same definitions serve plain matching, matching with a table,
and counting the attempts made.
-/

namespace Packrat

/-- The alternative that a rule settled on, by its place among the alternatives. -/
structure Choice where
  alternative : Nat
  span : Span
deriving DecidableEq

/-- The result of choosing between alternatives. -/
inductive Resolution where
  | chosen (choice : Choice)
  | noMatch (failure : NoMatch)
deriving DecidableEq

/-- What is left of a resolution when it does not matter which alternative won. -/
def Resolution.toOutcome : Resolution → Outcome
  | .chosen choice => .matched choice.span
  | .noMatch failure => .noMatch failure

variable {m : Type → Type} [Monad m] {α : Type}

/-- Ordered choice among alternatives that are numbered from `place` on, when `deepest` is the
deepest failure so far. -/
@[specialize]
def orderedChoiceFrom (attempt : α → m Outcome) (place : Nat) (deepest : NoMatch) :
    List α → m Resolution
  | [] => pure (.noMatch deepest)
  | alternative :: rest => do
    match ← attempt alternative with
    | .matched span => pure (.chosen ⟨place, span⟩)
    | .noMatch failure =>
      orderedChoiceFrom attempt (place + 1) (deepest.deeper failure) rest

/-- The first alternative that matches. -/
@[inline]
def orderedChoice (alternatives : List α) (pos : Nat) (attempt : α → m Outcome) : m Resolution :=
  orderedChoiceFrom attempt 0 ⟨pos⟩ alternatives

/-- Whether a match of `span` is longer than the best choice so far. -/
def Choice.outreachedBy (best? : Option Choice) (span : Span) : Bool :=
  match best? with
  | none => true
  | some best => best.span.stop < span.stop

/-- Longest match among alternatives that are numbered from `place` on, when `best?` is the best
choice and `deepest` the deepest failure so far. -/
@[specialize]
def longestMatchFrom (attempt : α → m Outcome) (place : Nat) (best? : Option Choice)
    (deepest : NoMatch) : List α → m Resolution
  | [] => pure (match best? with
      | some best => .chosen best
      | none => .noMatch deepest)
  | alternative :: rest => do
    match ← attempt alternative with
    | .matched span =>
      longestMatchFrom attempt (place + 1)
        (if Choice.outreachedBy best? span then some ⟨place, span⟩ else best?) deepest rest
    | .noMatch failure =>
      longestMatchFrom attempt (place + 1) best? (deepest.deeper failure) rest

/-- The alternative that reaches furthest, the first of those that reach equally far. -/
@[inline]
def longestMatch (alternatives : List α) (pos : Nat) (attempt : α → m Outcome) : m Resolution :=
  longestMatchFrom attempt 0 none ⟨pos⟩ alternatives

/-- Chooses by the policy that belongs to `mode`. -/
@[inline]
def resolve (mode : Mode) (alternatives : List α) (pos : Nat) (attempt : α → m Outcome) :
    m Resolution :=
  match mode with
  | .parser => orderedChoice alternatives pos attempt
  | .lexer => longestMatch alternatives pos attempt

end Packrat
