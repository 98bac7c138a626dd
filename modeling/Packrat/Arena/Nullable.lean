import Packrat.Arena

/-!
# Nullable nodes

A node is nullable when it can match without taking a character. The nullable nodes and rules
are the least ones closed under the rules below; they are found by repeated passes over all
nodes and rules, from none on, until a pass finds no new one. A pass makes use at once of what
it finds.

* `Nullability.ofNode`, `Nullability.ofRule`: when a node or a rule is nullable, given which
  nodes and rules are known to be.
* `Nullability.pass`: one pass.
* `Arena.nullability`: the nullable nodes and rules of an arena.
-/

namespace Packrat

/-- A primitive that matches without taking a character: the end of the text or the literal of
no characters. -/
def Primitive.isNullable : Primitive → Bool
  | any | range _ | set _ => false
  | literal text => text.isEmpty
  | eof => true

/-- Which nodes and which rules are known to be nullable, by place. -/
structure Nullability where
  nodes : Array Bool
  rules : Array Bool
deriving DecidableEq

namespace Nullability

/-- No node and no rule is known to be nullable. -/
def initial (arena : Arena) : Nullability where
  nodes := arena.nodes.map fun _ => false
  rules := arena.rules.map fun _ => false

def node (known : Nullability) (id : NodeId) : Bool := known.nodes.getD id.index false

def rule (known : Nullability) (id : RuleId) : Bool := known.rules.getD id false

/-- A sequence is nullable when all its parts are. -/
def ofNode (known : Nullability) : Node → Bool
  | .primitive p => p.isNullable
  | .sequence children => children.all known.node
  | .rule id => known.rule id

/-- A rule is nullable when one of its alternatives is. -/
def ofRule (known : Nullability) (rule : Rule) : Bool := rule.alternatives.any known.node

/-- Adds the node at a place, if it follows from what is known that it is nullable. -/
def markNode (known : Nullability) (node : Node) (place : Nat) : Nullability :=
  if known.ofNode node then { known with nodes := known.nodes.setIfInBounds place true } else known

/-- Adds a rule, if it follows from what is known that it is nullable. -/
def markRule (known : Nullability) (rule : Rule) (id : RuleId) : Nullability :=
  if known.ofRule rule then { known with rules := known.rules.setIfInBounds id true } else known

/-- Goes once over all nodes and then over all rules, in order. -/
def pass (arena : Arena) (known : Nullability) : Nullability :=
  let known := arena.nodes.toList.zipIdx.foldl (fun known (node, place) => known.markNode node place)
    known
  arena.rules.toList.zipIdx.foldl (fun known (rule, id) => known.markRule rule id) known

/-- The number of nodes and rules that are not known to be nullable. -/
def unknown (known : Nullability) : Nat := known.nodes.count false + known.rules.count false

/-- Repeats the pass as long as it finds something new. -/
def settle (arena : Arena) (known : Nullability) : Nullability :=
  let next := pass arena known
  if next.unknown < known.unknown then settle arena next else known
termination_by known.unknown

end Nullability

/-- The nullable nodes and rules of an arena. -/
def Arena.nullability (arena : Arena) : Nullability := .settle arena (.initial arena)

end Packrat
