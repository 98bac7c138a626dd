import Packrat.Config
import Packrat.Record

/-!
# Settings as a record

* `ConfigField`: the two settings.
* `Config.declaration`: what is declared of them.
* `Config.ofValues`: settings from the values of both.
-/

namespace Packrat

/-- The two settings. -/
inductive ConfigField where
  | memoize
  | defaultMode
deriving DecidableEq

def ConfigField.name : ConfigField → String
  | memoize => "memoize"
  | defaultMode => "default_mode"

theorem ConfigField.name_injective : Function.Injective name := by
  intro field other h
  cases field <;> cases other <;> simp_all [name]

namespace Config

/-- Rule results are kept unless settings say otherwise, and the mode is that of parsing. -/
def declaration : Record.Declaration ConfigField where
  name := ConfigField.name
  name_injective := ConfigField.name_injective
  Value
    | .memoize => Bool
    | .defaultMode => Mode
  kind
    | .memoize => .flag
    | .defaultMode => .choice Mode.name Mode.name_injective
  default
    | .memoize => true
    | .defaultMode => .parser

/-- Settings from the values of both fields. -/
def ofValues (values : declaration.Values) : Config where
  memoize := values .memoize
  defaultMode := values .defaultMode

/-- Where nothing is given, settings are the default ones. -/
theorem ofValues_complete_nothing : ofValues (declaration.complete declaration.nothing) = {} :=
  rfl

end Config

end Packrat
