import Packrat.Arena

/-!
# Written grammars

The notation in which a grammar is shown: a rule is its name, then each alternative on a line
of its own, the first behind a colon and the others behind a bar, then a semicolon. A sequence
inside a sequence stands in round brackets.

* `Arena.writtenNode`: one node.
* `Arena.written`: all rules, and the root first, as `start`, unless it is a rule.
-/

namespace Packrat.Arena

/-- The node at a place, as it stands in an alternative. Parts of a sequence that do not stand
before it are left blank. -/
def writtenNode (arena : Arena) (place : Nat) : String :=
  match arena.nodes[place]? with
  | none => ""
  | some (.primitive p) => p.written
  | some (.rule id) => ((arena.rule? id).map Rule.name).getD ""
  | some (.sequence []) => "()"
  | some (.sequence children) =>
    " ".intercalate (children.map fun child =>
      if _h : child.index < place then
        if (arena.node? child).any Node.isSequence then
          "( " ++ writtenNode arena child.index ++ " )"
        else writtenNode arena child.index
      else "")
termination_by place

/-- The lines of one rule, given its alternatives as written. -/
def ruleLines (name : String) (alternatives : List String) : String :=
  match alternatives with
  | [] => name ++ "\n  ;\n"
  | first :: others =>
    name ++ "\n  : " ++ first ++ String.join (others.map ("\n  | " ++ ·)) ++ "\n  ;\n"

def writtenRule (arena : Arena) (rule : Rule) : String :=
  ruleLines rule.name (rule.alternatives.map fun id => arena.writtenNode id.index)

/-- The whole grammar with `root` as its root. -/
def written (arena : Arena) (root : NodeId) : String :=
  let start :=
    match arena.node? root with
    | some (.rule _) => []
    | _ => [ruleLines "start" [arena.writtenNode root.index]]
  "\n".intercalate (start ++ arena.rules.toList.map arena.writtenRule)

end Packrat.Arena
