/-!
# Modes

The discipline by which a rule with several alternatives settles on one of them. A match
carries its mode from the outside in; nothing else depends on it.

* `Mode.lexer`: the alternative that reaches furthest.
* `Mode.parser`: the first alternative that matches.
-/

namespace Packrat

/-- How a rule chooses between alternatives that match. -/
inductive Mode where
  | lexer
  | parser
deriving DecidableEq

namespace Mode

/-- Parsing is the mode where none is named. -/
instance : Inhabited Mode := ⟨.parser⟩

def isLexer : Mode → Bool
  | .lexer => true
  | .parser => false

/-- The place of a mode in an order of modes. -/
def rank : Mode → Nat
  | .lexer => 0
  | .parser => 1

/-- Reads `true` as lexing. -/
def ofBool (lexing : Bool) : Mode := if lexing then .lexer else .parser

def name : Mode → String
  | .lexer => "lexer"
  | .parser => "parser"

instance : ToString Mode := ⟨name⟩

/-- The mode of a name; names are matched exactly. -/
def ofName? (s : String) : Option Mode :=
  if s = "lexer" then some .lexer else if s = "parser" then some .parser else none

/-- What is said of a name that is no mode's. -/
def unknownName : String := "Matching variant not found"

/-- The mode as a JSON text: its name in double quotes. -/
def toJsonText (mode : Mode) : String := "\"" ++ mode.name ++ "\""

@[simp] theorem ofName?_name (mode : Mode) : ofName? mode.name = some mode := by
  cases mode <;> simp [ofName?, name]

theorem name_injective : Function.Injective name := by
  intro mode other h
  have := congrArg ofName? h
  simpa using this

theorem isLexer_ofBool (lexing : Bool) : (ofBool lexing).isLexer = lexing := by
  cases lexing <;> rfl

end Mode

end Packrat
