import Packrat.Builder

/-!
# Edits of a builder in place

A builder is changed in place, one field at a time, and a step can fail anywhere between two
changes. What was changed before the failure stays changed: there is nothing that takes it back.

* `Builder.Edit`: computations that change a builder in place, or fail.
* `Builder.Edit.ask`: a question that a builder answers without being changed.
* `Builder.Edit.perform`: a step of putting a grammar together, as it is taken in place.
-/

namespace Packrat

namespace Builder

/-- A computation on a builder. The builder is there also when the computation fails, with
whatever was changed up to then. -/
abbrev Edit := ExceptT GrammarError (StateM Builder)

namespace Edit

variable {α : Type}

/-- The result of an edit, and what is left of the builder. -/
def on (edit : Edit α) (builder : Builder) : Except GrammarError α × Builder :=
  StateT.run (ExceptT.run edit) builder

/-- Asks the builder something. -/
def ask (question : Builder → Except GrammarError α) : Edit α :=
  ExceptT.mk fun builder => (question builder, builder)

/-- Adds a node. The reference is to the last node there is then. -/
def push (node : Node) : Edit NodeId := do
  modify fun builder => { builder with nodes := builder.nodes.push node }
  let builder ← get
  return ⟨builder.nodes.size - 1, builder.tag⟩

/-- Refuses references that were not handed out by the builder, in order. -/
def checkAll (ids : List NodeId) : Edit Unit := ids.forM fun id => ask fun builder => builder.check id

/-- Adds a sequence of nodes. -/
def sequence (children : List NodeId) : Edit NodeId := do
  checkAll children
  push (.sequence children)

/-- Declares a rule. -/
def declare (name : String) : Edit NodeId := do
  ask fun builder =>
    if (builder.names.lookup name).isSome then .error (.duplicateRule name) else .ok ()
  let rule := (← get).rules.size
  let node ← push (.rule rule)
  modify fun builder => { builder with rules := builder.rules.push ⟨name, node, none⟩ }
  modify fun builder => { builder with names := (name, rule) :: builder.names }
  return node

/-- Binds a declared rule to its alternatives, in order. -/
def bind (rule : NodeId) (alternatives : List NodeId) : Edit Unit := do
  let id ← ask fun builder => builder.ruleOf rule
  checkAll alternatives
  ask fun builder =>
    match builder.rules[id]? with
    | none => .error (.notARule rule.index)
    | some pending =>
      if pending.alternatives.isSome then .error (.ruleAlreadyBound pending.name)
      else if alternatives.isEmpty then .error (.emptyRule pending.name)
      else .ok ()
  modify fun builder =>
    { builder with
      rules := builder.rules.modify id fun pending =>
        { pending with alternatives := some alternatives } }

/-- Takes a step. The result holds the reference to the node that the step added, if it did. -/
def perform : Operation → Edit (Option NodeId)
  | .any => some <$> push (.primitive .any)
  | .eof => some <$> push (.primitive .eof)
  | .charRange lo hi => do
    let p ← ask fun _ => Primitive.charRange lo hi
    some <$> push (.primitive p)
  | .charSet spec => do
    let p ← ask fun _ => Primitive.charSet spec
    some <$> push (.primitive p)
  | .literal text => some <$> push (.primitive (.ofString text))
  | .sequence children => some <$> sequence children
  | .rule name => some <$> declare name
  | .bind rule alternatives => do
    bind rule alternatives
    return none
  | .setTarget rule target => do
    bind rule [target]
    return none

end Edit

end Builder

end Packrat
