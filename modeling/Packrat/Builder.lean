import Packrat.Grammar
import Packrat.Grammar.Error

/-!
# Builders

A grammar is put together node by node. A builder hands out a reference for every new node, to
be used in later ones. Rules are declared first and bound to their alternatives later, so that
a rule can stand in its own alternatives. The references that a builder hands out carry its
tag, and it takes no others.

* `Builder.Operation`, `Builder.apply`: the steps of putting a grammar together. A step that
  fails changes nothing.
* `Builder.run`: any number of steps.
* `Builder.build`: checks the whole and makes a grammar of it.
-/

namespace Packrat

/-- A rule that was declared, and its alternatives once it is bound. -/
structure PendingRule where
  name : String
  node : NodeId
  alternatives : Option (List NodeId)
deriving DecidableEq

/-- A grammar that is being put together. -/
structure Builder where
  tag : Nat
  nodes : Array Node
  rules : Array PendingRule
  /-- The rules by name; the first entry of a name counts. -/
  names : List (String × RuleId)
deriving DecidableEq

namespace Builder

/-- A builder with nothing in it. -/
def new (tag : Nat) : Builder := ⟨tag, #[], #[], []⟩

/-- Adds a node. -/
def push (builder : Builder) (node : Node) : NodeId × Builder :=
  (⟨builder.nodes.size, builder.tag⟩, { builder with nodes := builder.nodes.push node })

/-- Whether a reference was handed out by this builder. -/
def owns (builder : Builder) (id : NodeId) : Bool :=
  id.owner == builder.tag && id.index < builder.nodes.size

/-- Refuses a reference that was not handed out by this builder. -/
def check (builder : Builder) (id : NodeId) : Except GrammarError Unit :=
  if builder.owns id then .ok () else .error (.unknownParser id.index)

/-- The rule that a reference stands for. -/
def ruleOf (builder : Builder) (id : NodeId) : Except GrammarError RuleId := do
  builder.check id
  match builder.nodes[id.index]? with
  | some (.rule rule) => .ok rule
  | _ => .error (.notARule id.index)

/-- Adds a sequence of nodes. -/
def sequence (builder : Builder) (children : List NodeId) :
    Except GrammarError (NodeId × Builder) := do
  children.forM builder.check
  return builder.push (.sequence children)

/-- Declares a rule. -/
def declare (builder : Builder) (name : String) : Except GrammarError (NodeId × Builder) :=
  if (builder.names.lookup name).isSome then .error (.duplicateRule name)
  else
    let (node, grown) := builder.push (.rule builder.rules.size)
    .ok (node, { grown with
      rules := grown.rules.push ⟨name, node, none⟩
      names := (name, builder.rules.size) :: grown.names })

/-- Binds a declared rule to its alternatives, in order. -/
def bind (builder : Builder) (rule : NodeId) (alternatives : List NodeId) :
    Except GrammarError Builder := do
  let id ← builder.ruleOf rule
  alternatives.forM builder.check
  match builder.rules[id]? with
  | none => .error (.notARule rule.index)
  | some pending =>
    if pending.alternatives.isSome then .error (.ruleAlreadyBound pending.name)
    else if alternatives.isEmpty then .error (.emptyRule pending.name)
    else .ok { builder with
      rules := builder.rules.modify id fun pending =>
        { pending with alternatives := some alternatives } }

/-- A step of putting a grammar together. -/
inductive Operation where
  | any
  | eof
  | charRange (lo hi : Char)
  | charSet (spec : String)
  | literal (text : String)
  | sequence (children : List NodeId)
  | rule (name : String)
  | bind (rule : NodeId) (alternatives : List NodeId)
  | setTarget (rule target : NodeId)
deriving DecidableEq

/-- Takes a step. The result holds the reference to the node that the step added, if it did. -/
def apply (builder : Builder) : Operation → Except GrammarError (Option NodeId × Builder)
  | .any => .ok (added (builder.push (.primitive .any)))
  | .eof => .ok (added (builder.push (.primitive .eof)))
  | .charRange lo hi => do return added (builder.push (.primitive (← Primitive.charRange lo hi)))
  | .charSet spec => do return added (builder.push (.primitive (← Primitive.charSet spec)))
  | .literal text => .ok (added (builder.push (.primitive (.ofString text))))
  | .sequence children => do return added (← builder.sequence children)
  | .rule name => do return added (← builder.declare name)
  | .bind rule alternatives => do return (none, ← builder.bind rule alternatives)
  | .setTarget rule target => do return (none, ← builder.bind rule [target])
where
  added (step : NodeId × Builder) : Option NodeId × Builder := (some step.1, step.2)

/-- Takes steps one after another, and goes on behind those that fail. The result holds the
references handed out. -/
def run (builder : Builder) : List Operation → List NodeId × Builder
  | [] => ([], builder)
  | operation :: rest =>
    match builder.apply operation with
    | .error _ => builder.run rest
    | .ok (added, next) =>
      let (ids, last) := next.run rest
      (added.toList ++ ids, last)

/-- A rule with its alternatives, refused if it is not bound. -/
def resolved (pending : PendingRule) : Except GrammarError Rule :=
  match pending.alternatives with
  | some alternatives => .ok ⟨pending.name, pending.node, alternatives⟩
  | none => .error (.unresolvedRule pending.name)

/-- The arena put together so far, unless a rule is not bound. -/
def arena (builder : Builder) : Except GrammarError Arena := do
  let rules ← builder.rules.toList.mapM resolved
  return ⟨builder.nodes, rules.toArray, builder.names⟩

/-- The names of the rules of a cycle. -/
def cycleNames (arena : Arena) (cycle : List RuleId) : List String :=
  cycle.filterMap fun id => (arena.rule? id).map Rule.name

/-- Makes a grammar with the given root. It is refused when a rule was never bound, or when a
rule can come back to itself without taking a character. -/
def build (builder : Builder) (root : NodeId) (config : Config) : Except GrammarError Grammar := do
  builder.check root
  let arena ← builder.arena
  match arena.leadsTo.findCycle? with
  | some cycle => .error (.unboundedRecursion (cycleNames arena cycle))
  | none => return ⟨arena, root, config⟩

end Builder

end Packrat
