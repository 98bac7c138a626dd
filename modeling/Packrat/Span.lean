/-!
# Spans

A span says which characters of a text a match took: those from the offset `start` up to,
not including, the offset `stop`. Offsets count characters.

* `Span.length`, `Span.isEmpty`: how much a span takes.
* `Span.substringOf`: the characters that a span takes from a text, cut off at its end.
-/

namespace Packrat

/-- The characters of a text from `start` up to, not including, `stop`. -/
structure Span where
  start : Nat
  stop : Nat
deriving DecidableEq

namespace Span

/-- The span of no characters at `pos`. -/
def empty (pos : Nat) : Span := ⟨pos, pos⟩

/-- The number of characters taken. -/
def length (span : Span) : Nat := span.stop - span.start

def isEmpty (span : Span) : Bool := span.start == span.stop

/-- The characters of `text` in the span; what lies behind the end of the text is left out. -/
def substringOf (span : Span) (text : String) : String :=
  String.ofList ((text.toList.drop span.start).take span.length)

/-- Both offsets in decimal with two dots between them, as in `3..7`. -/
protected def toString (span : Span) : String := s!"{span.start}..{span.stop}"

instance : ToString Span := ⟨Span.toString⟩

@[simp] theorem length_empty (pos : Nat) : (empty pos).length = 0 := Nat.sub_self pos

@[simp] theorem isEmpty_empty (pos : Nat) : (empty pos).isEmpty = true := by simp [isEmpty, empty]

end Span

end Packrat
