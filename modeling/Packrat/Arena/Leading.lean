import Packrat.Arena.Nullable
import Packrat.Digraph

/-!
# Leading rules

The rules that may be entered at the very offset at which a node is entered: the first part of
each sequence, and the following ones as long as all before them are nullable.

* `Arena.leading`: the leading rules of a node.
* `Arena.leadsTo`: the digraph from each rule to the leading rules of its alternatives. A cycle
  in it is a rule that comes back to itself without having taken a character.
-/

namespace Packrat

/-- The parts of a sequence up to the first that is not nullable, that one included. -/
def Nullability.opening (known : Nullability) : List NodeId → List NodeId
  | [] => []
  | child :: rest => if known.node child then child :: known.opening rest else [child]

namespace Arena

/-- The rules that may be entered where the node at a place is. Parts of a sequence that do not
stand before it lead nowhere. -/
def leading (arena : Arena) (known : Nullability) (place : Nat) : List RuleId :=
  match arena.nodes[place]? with
  | some (.rule id) => [id]
  | some (.sequence children) =>
    (known.opening children).flatMap fun child =>
      if _h : child.index < place then leading arena known child.index else []
  | _ => []
termination_by place

/-- The rules that may be entered where a rule is, in ascending order. -/
def leadingOfRule (arena : Arena) (known : Nullability) (rule : Rule) : List RuleId :=
  let entered := rule.alternatives.flatMap fun id => arena.leading known id.index
  (List.range arena.rules.size).filter fun id => entered.contains id

/-- The digraph from each rule to the rules that may be entered where it is. -/
def leadsTo (arena : Arena) : Digraph :=
  let known := arena.nullability
  ⟨arena.rules.map (arena.leadingOfRule known)⟩

end Arena

end Packrat
