import Packrat.Config.Error
import Packrat.Evaluation
import Packrat.Grammar.Error
import Packrat.Tokenizer.Error

/-!
# Errors

Everything that can go wrong, by the part of the library that it comes from.
-/

namespace Packrat

/-- Why a call failed. -/
inductive Error where
  | grammar (error : GrammarError)
  | tokenizer (error : TokenizerError)
  | config (error : ConfigError)
  | unknownRule (name : String)
  | evaluation (fault : Fault)
deriving DecidableEq

/-- What is said of an error. -/
def Error.message : Error → String
  | grammar error => "Grammar error: " ++ error.message
  | tokenizer error => "Tokenizer error: " ++ error.message
  | config error => "Config error: " ++ error.message
  | unknownRule name => "Unknown rule: " ++ name
  | evaluation fault => "Evaluation fault: " ++ fault.message

end Packrat
