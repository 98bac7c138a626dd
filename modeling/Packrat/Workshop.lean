import Packrat.Builder.Edit

/-!
# Workshops

Several builders side by side. Each has a tag of its own, so that none takes a reference that
another one handed out. Making a grammar uses a builder up.

* `Workshop.addBuilder`: adds a builder.
* `Workshop.step`: one step of one builder, taken in place.
* `Workshop.build`: makes a grammar with one builder.
* `Workshop.run`: any number of these, in any order, with the references handed out.
-/

namespace Packrat

/-- Builders by place, in the order in which they were added; those that were used up are gone. -/
structure Workshop where
  builders : Array (Option Builder)
deriving DecidableEq

namespace Workshop

def empty : Workshop := ⟨#[]⟩

/-- The builder in a place, unless it was used up. -/
def builder? (shop : Workshop) (place : Nat) : Option Builder := shop.builders.getD place none

/-- The workshop with something else in a place. -/
def put (shop : Workshop) (place : Nat) (slot : Option Builder) : Workshop :=
  ⟨shop.builders.setIfInBounds place slot⟩

/-- The tag of the builder in a place. Tags have 32 bits, and begin again from zero when they run
out. -/
def tagOf (place : Nat) : Nat := place % UInt32.size

/-- Adds a builder and returns its place. -/
def addBuilder (shop : Workshop) : Nat × Workshop :=
  (shop.builders.size, ⟨shop.builders.push (some (.new (tagOf shop.builders.size)))⟩)

/-- Takes one step with the builder in a place; `none` when there is no such builder. What the
step leaves of the builder is kept, also when it fails. -/
def step (shop : Workshop) (place : Nat) (operation : Builder.Operation) :
    Option (Except GrammarError (Option NodeId) × Workshop) :=
  (shop.builder? place).map fun builder =>
    let (result, left) := (Builder.Edit.perform operation).on builder
    (result, shop.put place (some left))

/-- Makes a grammar with the builder in a place, which is used up even if it fails; `none` when
there is no such builder. -/
def build (shop : Workshop) (place : Nat) (root : NodeId) (config : Config) :
    Option (Except GrammarError Grammar × Workshop) :=
  (shop.builder? place).map fun builder =>
    (builder.build root config, shop.put place none)

/-- Something done in a workshop. -/
inductive Action where
  | addBuilder
  | step (place : Nat) (operation : Builder.Operation)
  | build (place : Nat) (root : NodeId) (config : Config)
deriving DecidableEq

/-- Takes an action; nothing is done where there is no such builder. The result holds the
reference that was handed out, if one was, with the place of the builder that handed it out. -/
def act (shop : Workshop) : Action → Option (Nat × NodeId) × Workshop
  | .addBuilder => (none, shop.addBuilder.2)
  | .step place operation =>
    match shop.step place operation with
    | none => (none, shop)
    | some (.error _, next) => (none, next)
    | some (.ok added, next) => (added.map (place, ·), next)
  | .build place root config =>
    match shop.build place root config with
    | none => (none, shop)
    | some (_, next) => (none, next)

/-- Takes actions one after another. The result holds the references handed out, each with the
place of the builder that handed it out. -/
def run (shop : Workshop) : List Action → List (Nat × NodeId) × Workshop
  | [] => ([], shop)
  | action :: rest =>
    let (issued, next) := shop.act action
    let (others, last) := next.run rest
    (issued.toList ++ others, last)

end Workshop

end Packrat
