import Packrat.Builder

/-!
# Sequences within sequences

A part of a sequence may be a sequence itself. Then the parts of that one can stand in its place,
and one node of a grammar, or of a builder, has other parts than before.

* `Nesting`: a sequence with a sequence as a part.
* `Nesting.flattened`: the nodes where it has the parts of that part instead.
* `Arena.flatten`, `Grammar.flatten`, `Builder.flatten`: what has these nodes.
-/

namespace Packrat

/-- A sequence among some nodes that has another one as a part. -/
structure Nesting (nodes : Array Node) where
  /-- Where the outer sequence stands. -/
  place : Nat
  front : List NodeId
  /-- The part that is a sequence. -/
  part : NodeId
  back : List NodeId
  /-- The parts of the inner sequence. -/
  inner : List NodeId
  outer_eq : nodes[place]? = some (.sequence (front ++ part :: back))
  inner_eq : nodes[part.index]? = some (.sequence inner)

namespace Nesting

variable {nodes : Array Node} (nesting : Nesting nodes)

/-- The parts of the outer sequence, with those of the inner one in its place. -/
def parts : List NodeId := nesting.front ++ nesting.inner ++ nesting.back

/-- The nodes with one sequence for the two. The inner one remains, as others may have it as a
part. -/
def flattened : Array Node := nodes.setIfInBounds nesting.place (.sequence nesting.parts)

end Nesting

/-- An arena with one sequence for two. -/
def Arena.flatten (arena : Arena) (nesting : Nesting arena.nodes) : Arena :=
  { arena with nodes := nesting.flattened }

/-- A grammar with one sequence for two. -/
def Grammar.flatten (grammar : Grammar) (nesting : Nesting grammar.arena.nodes) : Grammar :=
  { grammar with arena := grammar.arena.flatten nesting }

/-- A builder with one sequence for two. -/
def Builder.flatten (builder : Builder) (nesting : Nesting builder.nodes) : Builder :=
  { builder with nodes := nesting.flattened }

end Packrat
