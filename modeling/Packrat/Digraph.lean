/-!
# Directed graphs

Graphs on the numbers below some bound, given by the targets of each vertex, and a search for
a cycle in them.

* `Visit`, `Search`: how far a search has come, with each vertex and as a whole.
* `Digraph.explore`: follows all edges from a vertex, depth first.
* `Digraph.findCycle?`: a cycle of the graph, if there is one.
-/

namespace Packrat

/-- A directed graph: the targets of each vertex, in order. -/
structure Digraph where
  edges : Array (List Nat)
deriving DecidableEq

/-- How far a search has come with a vertex. -/
inductive Visit where
  | fresh
  /-- The vertex is on the path that is being followed. -/
  | active
  /-- All that can be reached from the vertex was followed, and no cycle found. -/
  | done
deriving DecidableEq

/-- How far a search has come: with each vertex, and the path that is being followed. The path
has its latest vertex first. -/
structure Search where
  visits : Array Visit
  path : List Nat
deriving DecidableEq

namespace Search

/-- A search that has not begun, on a graph with so many vertices. -/
def start (order : Nat) : Search := ⟨Array.replicate order .fresh, []⟩

/-- Extends the path by a vertex. -/
def enter (s : Search) (v : Nat) : Search := ⟨s.visits.setIfInBounds v .active, v :: s.path⟩

/-- Takes the latest vertex off the path. -/
def leave (s : Search) (v : Nat) : Search := ⟨s.visits.setIfInBounds v .done, s.path.tail⟩

/-- The end of the path from `v` on, and `v` once more; `none` if the path does not visit `v`. -/
def closing? (s : Search) (v : Nat) : Option (List Nat) :=
  if v ∈ s.path then some (v :: (s.path.takeWhile (· ≠ v)).reverse ++ [v]) else none

end Search

namespace Digraph

/-- The number of vertices. -/
def order (g : Digraph) : Nat := g.edges.size

def targets (g : Digraph) (v : Nat) : List Nat := g.edges.getD v []

/-- Follows all edges from `v` that lead to fresh vertices. The result is a cycle, if one is
closed, or else how far the search has come. A path visits no vertex twice, so it has no more
vertices than the graph: `room` of them are left. -/
def explore (g : Digraph) (room : Nat) (s : Search) (v : Nat) : Except (List Nat) Search :=
  match s.visits.getD v .done with
  | .done => .ok s
  | .active =>
    match s.closing? v with
    | some cycle => .error cycle
    | none => .ok s
  | .fresh =>
    match room with
    | 0 => .ok s
    | room + 1 => do
      let next ← (g.targets v).foldlM (explore g room) (s.enter v)
      return next.leave v

/-- A cycle, with its first vertex repeated at the end. -/
def findCycle? (g : Digraph) : Option (List Nat) :=
  match (List.range g.order).foldlM (g.explore g.order) (.start g.order) with
  | .ok _ => none
  | .error cycle => some cycle

end Digraph

end Packrat
