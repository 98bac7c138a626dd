import Packrat.Config.Declaration
import Packrat.Decimal
import Packrat.Json.Defect
import Packrat.Json.Number
import Packrat.Text.Quoted

/-!
# Defects of settings

What the package for settings can find wrong with a JSON text, and what it says of it.

* `JsonKind`: a value that was found in place of another.
* `ConfigDefect`: a defect of the text, or a value in the wrong place.
-/

namespace Packrat

/-- A value, as far as it is told what was found. -/
inductive JsonKind where
  | null
  | bool (value : Bool)
  | number (value : JsonNumber)
  | string (value : String)
  | list
  | object
deriving DecidableEq

/-- Binary numbers are written out in full from the exponent -5 to the exponent 15. -/
def JsonNumber.layout : Decimal.Layout where
  leastPlain := -5
  greatestPlain := 15
  wholeMark := ".0"
  plusMark := "+"

/-- What is said of a value that was found. -/
def JsonKind.describe : JsonKind → String
  | null => "null"
  | bool value => "boolean `" ++ (if value then "true" else "false") ++ "`"
  | number (.whole value) => "integer `" ++ toString value ++ "`"
  | number (.binary value) => "floating point `" ++ value.write JsonNumber.layout ++ "`"
  | string value => "string " ++ Text.quoteString value
  | list => "sequence"
  | object => "map"

/-- What settings are made of. -/
inductive ConfigPart where
  | settings
  | flag
  | unit
deriving DecidableEq

/-- What is said of a part that was expected. -/
def ConfigPart.describe : ConfigPart → String
  | settings => "struct EngineConfig"
  | flag => "a boolean"
  | unit => "unit"

/-- What is wrong with a text that should hold settings. -/
inductive ConfigDefect where
  | json (defect : JsonDefect)
  | invalidType (found : JsonKind) (expected : ConfigPart)
  | unknownMode (name : String)
  | duplicateField (field : ConfigField)
deriving DecidableEq

/-- What is said of a defect. -/
def ConfigDefect.message : ConfigDefect → String
  | json defect => defect.message
  | invalidType found expected =>
    "invalid type: " ++ found.describe ++ ", expected " ++ expected.describe
  | unknownMode name => "unknown variant `" ++ name ++ "`, expected `lexer` or `parser`"
  | duplicateField field => "duplicate field `" ++ field.name ++ "`"

end Packrat
