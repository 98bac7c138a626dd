import Packrat.Builder
import Packrat.Tokenizer

/-!
# Checked lookups

What is done with an arena, with every lookup checked: a node, a rule, a flag, a visit, a list of
targets or a kind that is not there gives no result at all, where the definitions that run have a
value to fall back on. So do a part of a sequence that does not stand before it, which would be
followed without end, and a search that runs out of room.

* `Checked.nullability`, `Checked.leadsTo`, `Checked.findCycle`, `Checked.cycle`: the check that a
  grammar goes through when it is built.
* `Checked.writtenNode`, `Checked.written`: the notation.
* `Checked.ruleNode`, `Checked.tokenizer`: what is found by the name of a rule.
-/

namespace Packrat.Checked

/-- The flag of a node. -/
def nullable (known : Nullability) (id : NodeId) : Option Bool := known.nodes[id.index]?

/-- Parts are looked up as far as they are nullable. -/
def ofNode (known : Nullability) : Node → Option Bool
  | .primitive p => some p.isNullable
  | .sequence children => children.allM (nullable known)
  | .rule id => known.rules[id]?

/-- Alternatives are looked up until one is nullable. -/
def ofRule (known : Nullability) (rule : Rule) : Option Bool :=
  rule.alternatives.anyM (nullable known)

/-- Sets the flag at a place. -/
def mark (flags : Array Bool) (place : Nat) : Option (Array Bool) :=
  if place < flags.size then some (flags.setIfInBounds place true) else none

def markNode (known : Nullability) (node : Node) (place : Nat) : Option Nullability := do
  if ← ofNode known node then
    return { known with nodes := ← mark known.nodes place }
  else return known

def markRule (known : Nullability) (rule : Rule) (id : RuleId) : Option Nullability := do
  if ← ofRule known rule then
    return { known with rules := ← mark known.rules id }
  else return known

/-- Goes once over all nodes and then over all rules, in order. -/
def pass (arena : Arena) (known : Nullability) : Option Nullability := do
  let known ← arena.nodes.toList.zipIdx.foldlM
    (fun known (node, place) => markNode known node place) known
  arena.rules.toList.zipIdx.foldlM (fun known (rule, id) => markRule known rule id) known

/-- Repeats the pass as long as it finds something new. -/
def settle (arena : Arena) (known : Nullability) : Option Nullability :=
  match pass arena known with
  | none => none
  | some next => if next.unknown < known.unknown then settle arena next else some known
termination_by known.unknown

/-- The nullable nodes and rules of an arena. -/
def nullability (arena : Arena) : Option Nullability := settle arena (.initial arena)

/-- The parts of a sequence up to the first that is not nullable, that one included. -/
def opening (known : Nullability) : List NodeId → Option (List NodeId)
  | [] => some []
  | child :: rest => do
    if ← nullable known child then return child :: (← opening known rest) else return [child]

/-- The rules that may be entered where the node at a place is. -/
def leading (arena : Arena) (known : Nullability) (place : Nat) : Option (List RuleId) :=
  match arena.nodes[place]? with
  | none => none
  | some (.primitive _) => some []
  | some (.rule id) => some [id]
  | some (.sequence children) => do
    let entered ← (← opening known children).mapM fun child =>
      if _h : child.index < place then leading arena known child.index else none
    return entered.flatten
termination_by place

/-- The rules that may be entered where a rule is, all of which are in the arena. -/
def leadingOfRule (arena : Arena) (known : Nullability) (rule : Rule) : Option (List RuleId) := do
  let entered ← rule.alternatives.mapM fun id => leading arena known id.index
  if entered.flatten.all (· < arena.rules.size) then
    return (List.range arena.rules.size).filter fun id => entered.flatten.contains id
  else none

/-- The digraph from each rule to the rules that may be entered where it is. -/
def leadsTo (arena : Arena) : Option Digraph := do
  let known ← nullability arena
  let edges ← arena.rules.toList.mapM (leadingOfRule arena known)
  return ⟨edges.toArray⟩

/-- Follows edges to several vertices, one after another, until a cycle is closed. -/
def follow (visit : Search → Nat → Option (Except (List Nat) Search)) :
    List Nat → Search → Option (Except (List Nat) Search)
  | [], s => some (.ok s)
  | v :: vs, s => do
    match ← visit s v with
    | .error cycle => return .error cycle
    | .ok next => follow visit vs next

/-- Follows all edges from `v` that lead to fresh vertices. -/
def explore (g : Digraph) (room : Nat) (s : Search) (v : Nat) :
    Option (Except (List Nat) Search) := do
  match ← s.visits[v]? with
  | .done => return .ok s
  | .active => return .error (← s.closing? v)
  | .fresh =>
    match room with
    | 0 => none
    | room + 1 => do
      match ← follow (explore g room) (← g.edges[v]?) (s.enter v) with
      | .error cycle => return .error cycle
      | .ok next => if v < next.visits.size then return .ok (next.leave v) else none

/-- A cycle of a digraph, if there is one. -/
def findCycle (g : Digraph) : Option (Option (List Nat)) := do
  match ← follow (explore g g.order) (List.range g.order) (.start g.order) with
  | .error cycle => return some cycle
  | .ok _ => return none

/-- The name of a rule. -/
def ruleName (arena : Arena) (id : RuleId) : Option String := (arena.rule? id).map Rule.name

/-- The names of the rules of a cycle, if a rule comes back to itself without taking a
character. -/
def cycle (arena : Arena) : Option (Option (List String)) := do
  match ← findCycle (← leadsTo arena) with
  | none => return none
  | some cycle => return some (← cycle.mapM (ruleName arena))

/-- The node at a place, as it stands in an alternative. -/
def writtenNode (arena : Arena) (place : Nat) : Option String :=
  match arena.nodes[place]? with
  | none => none
  | some (.primitive p) => some p.written
  | some (.rule id) => ruleName arena id
  | some (.sequence []) => some "()"
  | some (.sequence children) => do
    let parts ← children.mapM fun child =>
      if _h : child.index < place then do
        let node ← arena.node? child
        let part ← writtenNode arena child.index
        return if node.isSequence then "( " ++ part ++ " )" else part
      else none
    return " ".intercalate parts
termination_by place

def writtenRule (arena : Arena) (rule : Rule) : Option String := do
  let alternatives ← rule.alternatives.mapM fun id => writtenNode arena id.index
  return Arena.ruleLines rule.name alternatives

/-- The whole grammar with `root` as its root. -/
def written (arena : Arena) (root : NodeId) : Option String := do
  let start ← match ← arena.node? root with
    | .rule _ => some []
    | _ => (writtenNode arena root.index).map fun text => [Arena.ruleLines "start" [text]]
  let rules ← arena.rules.toList.mapM (writtenRule arena)
  return "\n".intercalate (start ++ rules)

/-- The node that stands for the rule of a name, if there is one. -/
def ruleNode (grammar : Grammar) (name : String) : Option (Option NodeId) :=
  match grammar.arena.ruleNamed? name with
  | none => some none
  | some id => do return some (← grammar.arena.rule? id).node

/-- The kind of token that an alternative at a place of the rule `name` makes. -/
def tokenKind (arena : Arena) (name : String) (place : Nat) (alternative : NodeId) :
    Option String := do
  match ← arena.node? alternative with
  | .rule id => ruleName arena id
  | _ => return name ++ "#" ++ toString place

/-- The tokenizer of the rule of a name. -/
def tokenizer (grammar : Grammar) (name : String) : Option (Except TokenizerError Tokenizer) :=
  match grammar.arena.ruleNamed? name with
  | none => some (.error (.unknownRule name))
  | some id => do
    let rule ← grammar.arena.rule? id
    let kinds ← rule.alternatives.zipIdx.mapM fun (alternative, place) =>
      tokenKind grammar.arena name place alternative
    return .ok ⟨grammar, id, kinds.toArray⟩

end Packrat.Checked
