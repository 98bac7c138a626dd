import Packrat.Span

/-!
# Inputs

The text being matched, as an array of characters: every offset of the library counts
characters, and a character is found by its offset at once.

* `Input.slice`: the characters of a span that lies inside the text, and nothing for one that
  does not.
-/

namespace Packrat

/-- A text whose characters are found by offset. -/
structure Input where
  chars : Array Char
deriving DecidableEq

namespace Input

def ofString (text : String) : Input := ⟨text.toList.toArray⟩

/-- The number of characters. -/
def length (input : Input) : Nat := input.chars.size

def isEmpty (input : Input) : Bool := input.chars.isEmpty

/-- The character at an offset, when the text reaches that far. -/
def charAt? (input : Input) (pos : Nat) : Option Char := input.chars[pos]?

/-- The text of a span, empty unless the span lies inside the text. -/
def slice (input : Input) (span : Span) : String :=
  if span.start ≤ span.stop ∧ span.stop ≤ input.length then
    String.ofList (input.chars.extract span.start span.stop).toList
  else ""

@[simp] theorem length_ofString (text : String) : (ofString text).length = text.length := by
  simp [ofString, length, String.length_toList]

end Input

end Packrat
