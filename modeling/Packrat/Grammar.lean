import Packrat.Arena.Leading
import Packrat.Arena.Written
import Packrat.Config

/-!
# Grammars

A grammar that has been put together: an arena in which every rule is bound and none comes back
to itself without taking a character, a root, and settings.

* `Grammar.written`: the grammar in its notation.
-/

namespace Packrat

structure Grammar where
  arena : Arena
  root : NodeId
  config : Config
deriving DecidableEq

namespace Grammar

/-- The names of the rules, in the order of declaration. -/
def ruleNames (grammar : Grammar) : List String := grammar.arena.rules.toList.map Rule.name

/-- The node that stands for the rule of a name. -/
def ruleNode? (grammar : Grammar) (name : String) : Option NodeId := do
  let rule ← grammar.arena.rule? (← grammar.arena.ruleNamed? name)
  return rule.node

/-- The grammar in its notation. -/
def written (grammar : Grammar) : String := grammar.arena.written grammar.root

end Grammar

end Packrat
