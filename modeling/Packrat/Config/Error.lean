/-!
# Errors of loading settings
-/

namespace Packrat

/-- Why settings could not be loaded. What is wrong with a text is told in the words of the
package that read it. -/
inductive ConfigError where
  | invalid (reason : String)
  | missingFile (path : String)
  | invalidFile (path reason : String)
deriving DecidableEq

/-- What is said of an error. -/
def ConfigError.message : ConfigError → String
  | invalid reason => "invalid engine config: " ++ reason
  | missingFile path =>
    "cannot open engine config " ++ path ++ ": No such file or directory (os error 2)"
  | invalidFile path reason => "invalid engine config " ++ path ++ ": " ++ reason

end Packrat
