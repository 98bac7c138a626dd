import Packrat.Primitive

/-!
# Arenas

A grammar is kept as a flat list of nodes, which refer to each other by place, a list of rules,
and an index of the rules by name. A node for a rule only names the rule; the rule holds its
alternatives. So a rule can stand inside its own alternatives, while the parts of a sequence
always stand before it.

* `NodeId`: a reference to a node, marked with the tag of its owner.
* `Node`, `Rule`, `Arena`: the parts of a grammar.
* `Arena.ruleNamed?`: the rule of a name.
-/

namespace Packrat

/-- A reference to the node at a place, handed out by the owner of a tag. -/
structure NodeId where
  index : Nat
  owner : Nat
deriving DecidableEq

/-- The place behind a number sign, as in `#3`. -/
def NodeId.written (id : NodeId) : String := s!"#{id.index}"

/-- A rule by its place in the order of declaration. -/
abbrev RuleId := Nat

/-- A part of a grammar. -/
inductive Node where
  | primitive (p : Primitive)
  /-- The parts are matched one after another. -/
  | sequence (children : List NodeId)
  | rule (id : RuleId)
deriving DecidableEq

def Node.isSequence : Node → Bool
  | sequence _ => true
  | _ => false

/-- A named list of alternatives, with the node that stands for it. -/
structure Rule where
  name : String
  node : NodeId
  alternatives : List NodeId
deriving DecidableEq

/-- The nodes and rules of a grammar. -/
structure Arena where
  nodes : Array Node
  rules : Array Rule
  /-- The rules by name; the first entry of a name counts. -/
  names : List (String × RuleId)
deriving DecidableEq

namespace Arena

def node? (arena : Arena) (id : NodeId) : Option Node := arena.nodes[id.index]?

def rule? (arena : Arena) (id : RuleId) : Option Rule := arena.rules[id]?

/-- The rule that has a name. -/
def ruleNamed? (arena : Arena) (name : String) : Option RuleId := arena.names.lookup name

end Arena

end Packrat
