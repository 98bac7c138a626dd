import Packrat.Evaluation

/-!
# Evaluations that assert their spans

A span is made where a primitive matches and at the end of a sequence; a rule hands on the span of
an alternative. So every span that is made on the way is that of some node, and an evaluation in
which every node asserts the span of its match asserts every span there is.

* `Evaluation.assertOrdered`: raises an alarm for a span that ends before it begins.
* `Evaluation.assertedNode`: matches a node like `evalNode`, with this assertion at every node.
-/

namespace Packrat.Evaluation

variable {m : Type → Type} [Matching m]

/-- Gives the evaluation up with an alarm where a match ends before it begins. -/
def assertOrdered (alarm : Fault) (outcome : Outcome) : m Outcome :=
  match outcome with
  | .matched span =>
    if span.start ≤ span.stop then pure (.matched span) else Matching.fault alarm
  | .noMatch failure => pure (.noMatch failure)

/-- Matches a node at an offset, going down at most as many nodes as the first argument says, and
asserts every span on the way. -/
def assertedNode (alarm : Fault) (arena : Arena) (input : Input) (mode : Mode) :
    Nat → NodeId → Nat → m Outcome
  | 0, _, _ => Matching.fault .tooDeep
  | depth + 1, id, pos => do
    let outcome ← matchNode arena input mode (assertedNode alarm arena input mode depth) id pos
    let outcome ← assertOrdered alarm outcome
    noteFailure outcome

end Packrat.Evaluation
