import Packrat.CharRange
import Packrat.CharSet
import Packrat.Grammar.Error
import Packrat.Input
import Packrat.Outcome

/-!
# Primitive matchers

The leaves of every grammar. A primitive looks at the text at one offset and either takes a
fixed number of characters there or fails at that offset; it never depends on the mode.

* `Primitive.charRange`, `Primitive.charSet`: the primitives whose parts can be malformed.
* `Primitive.width`: the number of characters taken by a match.
* `Primitive.attempt`: one attempt at an offset. Failures are reported inside the text, also
  for an offset behind its end.
* `Primitive.written`: the primitive as it stands in a written grammar.
-/

namespace Packrat

/-- A matcher without parts. -/
inductive Primitive where
  /-- Any one character. -/
  | any
  /-- One character of a range. -/
  | range (chars : CharRange)
  /-- One character of a set. -/
  | set (chars : CharSet)
  /-- Exactly these characters. -/
  | literal (text : Array Char)
  /-- The end of the text, of which nothing is taken. -/
  | eof
deriving DecidableEq

namespace Primitive

/-- One character between two bounds. -/
def charRange (lo hi : Char) : Except GrammarError Primitive :=
  match CharRange.ofBounds? lo hi with
  | some chars => .ok (range chars)
  | none => .error (.malformedRange lo hi)

/-- One character of the set with a spec. -/
def charSet (spec : String) : Except GrammarError Primitive :=
  match CharSet.ofSpec spec with
  | .ok chars => .ok (set chars)
  | .error defect => .error (.malformedCharSet spec defect)

/-- The characters of a text. -/
def ofString (text : String) : Primitive := literal text.toList.toArray

/-- The number of characters taken by a match. -/
def width : Primitive → Nat
  | any | range _ | set _ => 1
  | literal text => text.size
  | eof => 0

/-- Whether `text` from its place `i` on stands in the input at `pos`. -/
def literalAt (input : Input) (text : Array Char) (pos i : Nat) : Bool :=
  if h : i < text.size then
    input.charAt? pos == some text[i] && literalAt input text (pos + 1) (i + 1)
  else true
termination_by text.size - i

/-- Whether a primitive matches at an offset. -/
def accepts (p : Primitive) (input : Input) (pos : Nat) : Bool :=
  match p with
  | any => (input.charAt? pos).isSome
  | range chars => (input.charAt? pos).any chars.contains
  | set chars => (input.charAt? pos).any chars.contains
  | literal text => pos + text.size ≤ input.length && literalAt input text pos 0
  | eof => pos == input.length

/-- One attempt to match at an offset. -/
def attempt (p : Primitive) (input : Input) (pos : Nat) : Outcome :=
  if p.accepts input pos then .ofBounds pos (pos + p.width)
  else .noMatchAt (min pos input.length)

/-- The primitive as it stands in a written grammar. -/
def written : Primitive → String
  | any => "."
  | range chars => chars.written
  | set chars => chars.written
  | literal text => Text.quoteAscii text.toList
  | eof => "EOF"

end Primitive

end Packrat
