import Packrat.Choice
import Packrat.Memo.Key

/-!
# Evaluation

Matching the nodes of an arena against a text. A sequence matches its parts one after another
and fails with the first that does; a rule settles on one of its alternatives, all tried at the
same offset, by the policy of the mode. Whatever becomes of a failure, it is noted how far into
the text it got.

The definitions are written once, for any `m` that is a `Matching`: it says what becomes of a
primitive that was tried, of a failure, and of a rule that is to be settled, so that settling
with and without a table are two readings of the same evaluation.

* `evalSequence`, `settleRule`, `matchNode`: one step, given how nodes are evaluated.
* `evalNode`: a node, with a limit on the depth.
* `Arena.depthLimit`: the limit that is allowed for.
-/

namespace Packrat

/-- Why an evaluation was given up. -/
inductive Fault where
  /-- It went deeper than its limit. -/
  | tooDeep
  | missingNode (index : Nat)
  | missingRule (rule : RuleId)
  | missingKind (alternative : Nat)
deriving DecidableEq

def Fault.message : Fault → String
  | tooDeep => "evaluation went deeper than its limit"
  | missingNode index => s!"no node at {index}"
  | missingRule rule => s!"no rule at {rule}"
  | missingKind alternative => s!"no token kind for alternative {alternative}"

/-- What an evaluation does besides computing. -/
class Matching (m : Type → Type) extends Monad m where
  /-- Gives the evaluation up. -/
  fault {α : Type} : Fault → m α
  /-- Takes note of an attempt of a primitive at an offset, and of its outcome. -/
  tried : Nat → Outcome → m Unit
  /-- Takes note that a failure got to an offset. -/
  reach : Nat → m Unit
  /-- Settles a rule at an offset, given the evaluation that settles it. -/
  settling : Memo.Key → m Resolution → m Resolution

namespace Evaluation

/-- Matches the parts of a sequence that began at `start` one after another, from `pos` on. -/
@[specialize]
def evalSequence {m : Type → Type} [Monad m] (eval : NodeId → Nat → m Outcome) (start : Nat) :
    List NodeId → Nat → m Outcome
  | [], pos => pure (.ofBounds start pos)
  | child :: rest, pos => do
    match ← eval child pos with
    | .matched span => evalSequence eval start rest span.stop
    | .noMatch failure => pure (.noMatch failure)

variable {m : Type → Type} [Matching m]

/-- Settles a rule on one of its alternatives at `pos`. -/
@[specialize]
def settleRule (arena : Arena) (mode : Mode) (eval : NodeId → Nat → m Outcome) (id : RuleId)
    (pos : Nat) : m Resolution :=
  match arena.rule? id with
  | none => Matching.fault (.missingRule id)
  | some rule =>
    Matching.settling ⟨id, pos, mode⟩ (resolve mode rule.alternatives pos (eval · pos))

/-- Tries a primitive at `pos`. -/
@[inline]
def tryPrimitive (input : Input) (p : Primitive) (pos : Nat) : m Outcome := do
  let outcome := p.attempt input pos
  Matching.tried pos outcome
  pure outcome

/-- Matches a node whose parts and alternatives are matched by `eval`. -/
@[specialize]
def matchNode (arena : Arena) (input : Input) (mode : Mode) (eval : NodeId → Nat → m Outcome)
    (id : NodeId) (pos : Nat) : m Outcome :=
  match arena.node? id with
  | none => Matching.fault (.missingNode id.index)
  | some (.primitive p) => tryPrimitive input p pos
  | some (.sequence children) => evalSequence eval pos children pos
  | some (.rule rule) => do
    let resolution ← settleRule arena mode eval rule pos
    pure resolution.toOutcome

/-- Takes note of how far a failure got; a match goes without note. -/
@[inline]
def noteFailure (outcome : Outcome) : m Outcome :=
  match outcome with
  | .matched span => pure (.matched span)
  | .noMatch failure => do
    Matching.reach failure.index
    pure (.noMatch failure)

/-- Matches a node at an offset, going down at most as many nodes as the first argument says. -/
@[specialize]
def evalNode (arena : Arena) (input : Input) (mode : Mode) : Nat → NodeId → Nat → m Outcome
  | 0, _, _ => Matching.fault .tooDeep
  | depth + 1, id, pos => do
    let outcome ← matchNode arena input mode (evalNode arena input mode depth) id pos
    noteFailure outcome

end Evaluation

/-- How deep an evaluation over a text with so many characters left may go: at each offset it
enters a rule at most once, and between two rules each sequence at most once. -/
def Arena.depthLimit (arena : Arena) (remaining : Nat) : Nat :=
  (remaining + 1) * (arena.rules.size + 1) * (arena.nodes.size + 1)

namespace Evaluation

variable {m : Type → Type} [Matching m]

/-- Matches a node at an offset. -/
@[specialize]
def node (arena : Arena) (input : Input) (mode : Mode) (id : NodeId) (pos : Nat) : m Outcome :=
  evalNode arena input mode (arena.depthLimit (input.length - pos)) id pos

/-- Settles a rule at an offset. -/
@[specialize]
def rule (arena : Arena) (input : Input) (mode : Mode) (id : RuleId) (pos : Nat) :
    m Resolution :=
  settleRule arena mode (evalNode arena input mode (arena.depthLimit (input.length - pos))) id pos

end Evaluation

end Packrat
