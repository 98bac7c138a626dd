import Packrat.Mode

/-!
# Settings

The settings that belong to a grammar: whether rule results are kept in a table, and the mode
used where none is given.
-/

namespace Packrat

/-- The settings of a grammar. -/
structure Config where
  memoize : Bool := true
  defaultMode : Mode := .parser
deriving DecidableEq

namespace Config

instance : Inhabited Config := ⟨{}⟩

/-- The settings as a JSON object with two members. -/
def toJsonText (config : Config) : String :=
  "\x7b\"memoize\":" ++ (if config.memoize then "true" else "false") ++
    ",\"default_mode\":" ++ config.defaultMode.toJsonText ++ "\x7d"

end Config

end Packrat
