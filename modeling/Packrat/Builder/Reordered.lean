import Mathlib.Data.List.Forall2
import Packrat.Builder

/-!
# Alternatives in another order

Two grammars, or two builders, that differ only in the order in which their rules list their
alternatives, and in the tags of those who handed their references out.

* `Node.Alike`: nodes that differ in tags only.
* `Rule.Reordered`, `Arena.Reordered`, `Grammar.Reordered`: rules, arenas and grammars with
  alternatives in another order.
* `Builder.Reordered`: builders that were put together so.
-/

namespace Packrat

/-- Nodes of one kind that are made of the same parts, by place. -/
inductive Node.Alike : Node → Node → Prop where
  | primitive (p : Primitive) : Alike (.primitive p) (.primitive p)
  | sequence {children children' : List NodeId}
      (places_eq : children.map NodeId.index = children'.map NodeId.index) :
      Alike (.sequence children) (.sequence children')
  | rule (id : RuleId) : Alike (.rule id) (.rule id)

/-- Alternatives that stand at the same places, listed in any order. -/
def SamePlaces (alternatives alternatives' : List NodeId) : Prop :=
  (alternatives.map NodeId.index).Perm (alternatives'.map NodeId.index)

/-- Rules that differ in the order of their alternatives. -/
structure Rule.Reordered (rule rule' : Rule) : Prop where
  name_eq : rule.name = rule'.name
  place_eq : rule.node.index = rule'.node.index
  alternatives : SamePlaces rule.alternatives rule'.alternatives

/-- Arenas whose rules differ in the order of their alternatives. -/
structure Arena.Reordered (arena arena' : Arena) : Prop where
  nodes : List.Forall₂ Node.Alike arena.nodes.toList arena'.nodes.toList
  rules : List.Forall₂ Rule.Reordered arena.rules.toList arena'.rules.toList

/-- Grammars with the same settings that differ in the order of alternatives. -/
structure Grammar.Reordered (grammar grammar' : Grammar) : Prop where
  arena : grammar.arena.Reordered grammar'.arena
  root_eq : grammar.root.index = grammar'.root.index
  config_eq : grammar.config = grammar'.config

/-- Rules of builders that differ in the order of their alternatives, if they are bound. -/
structure PendingRule.Reordered (pending pending' : PendingRule) : Prop where
  name_eq : pending.name = pending'.name
  place_eq : pending.node.index = pending'.node.index
  alternatives : Option.Rel SamePlaces pending.alternatives pending'.alternatives

/-- Builders whose rules differ in the order of their alternatives. -/
structure Builder.Reordered (builder builder' : Builder) : Prop where
  nodes : List.Forall₂ Node.Alike builder.nodes.toList builder'.nodes.toList
  rules : List.Forall₂ PendingRule.Reordered builder.rules.toList builder'.rules.toList

end Packrat
