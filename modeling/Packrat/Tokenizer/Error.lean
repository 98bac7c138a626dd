/-!
# Errors of tokenizing
-/

namespace Packrat

/-- Why a text could not be cut into tokens. -/
inductive TokenizerError where
  | unknownRule (name : String)
  /-- No token begins at `index`; the attempts got to `deepest`. -/
  | noToken (index deepest : Nat)
  /-- The token that begins at `index` has no characters. -/
  | emptyToken (index : Nat)
deriving DecidableEq

/-- What is said of an error. -/
def TokenizerError.message : TokenizerError → String
  | unknownRule name => "Unknown token rule: " ++ name
  | noToken index deepest => s!"No token at index {index} (deepest attempt reached {deepest})"
  | emptyToken index => s!"Empty token at index {index}"

end Packrat
