import Packrat.CharSet.Spec
import Packrat.Text.Quoted

/-!
# Errors of grammars

What can be wrong with a grammar while it is put together. A grammar with such an error is
never handed out.
-/

namespace Packrat

/-- What is wrong with a grammar, or with one step of putting it together. -/
inductive GrammarError where
  | malformedCharSet (spec : String) (defect : SpecDefect)
  | malformedRange (lo hi : Char)
  | unresolvedRule (name : String)
  /-- The rules of the cycle, the first one repeated at the end. -/
  | unboundedRecursion (cycle : List String)
  | ruleAlreadyBound (name : String)
  | duplicateRule (name : String)
  | emptyRule (name : String)
  | unknownParser (index : Nat)
  | notARule (index : Nat)
deriving DecidableEq

/-- What is said of an error. -/
def GrammarError.message : GrammarError → String
  | malformedCharSet spec defect =>
    "Malformed char set spec " ++ Text.quoteString spec ++ ": " ++ defect.message
  | malformedRange lo hi =>
    "Malformed range: " ++ Text.quoteChar lo ++ " is greater than " ++ Text.quoteChar hi
  | unresolvedRule name => "Unresolved rule: " ++ name ++ " was never bound"
  | unboundedRecursion cycle => "Unbounded recursion: " ++ " -> ".intercalate cycle
  | ruleAlreadyBound name => "Rule already bound: " ++ name
  | duplicateRule name => "Duplicate rule: " ++ name
  | emptyRule name => "Empty rule: " ++ name ++ " has no alternatives"
  | unknownParser index => s!"Unknown parser: #{index}"
  | notARule index => s!"Not a rule: #{index}"

end Packrat
