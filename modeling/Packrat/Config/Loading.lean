import Packrat.Config.Declaration
import Packrat.Config.Error

/-!
# Loading settings

Settings are loaded from a text or from a file, with whatever package reads the record.

* `Config.load`, `Config.loadFile`: settings, or an error that says where the text stood and
  repeats what the package says of it.
-/

namespace Packrat.Config

variable {ε : Type} (package : Record.Package ε declaration)

/-- The settings in a text. -/
def load (text : String) : Except ConfigError Config :=
  match package.fromText text with
  | .ok values => .ok (ofValues values)
  | .error defect => .error (.invalid (package.describe defect))

/-- The settings in a file, given its path and what it holds, if there is such a file. -/
def loadFile (path : String) (contents? : Option (List UInt8)) : Except ConfigError Config :=
  match contents? with
  | none => .error (.missingFile path)
  | some bytes =>
    match package.fromBytes bytes with
    | .ok values => .ok (ofValues values)
    | .error defect => .error (.invalidFile path (package.describe defect))

end Packrat.Config
