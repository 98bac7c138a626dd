import Packrat.Primitive

/-!
# Primitives at offsets of 64 bits

The primitives once more, at offsets as a machine has them. Where an offset is moved on, the sum
is a plain one, which gives no result at all where it does not fit, or it is cut off at the last
offset there is. The end of the text is found by comparing offsets, by looking for a character, or
by cutting a part out of the text. As before, the mode plays no part.

* `Word.add?`, `Word.addCut`: the two sums.
* `Input.part?`: a part of the text, between two offsets that are in order and inside.
* `Primitive.attemptWord`: one attempt at an offset, with a `WordOutcome` if every plain sum fits.
-/

namespace Packrat

namespace Word

/-- The plain sum of two offsets, where it fits. -/
def add? (a b : UInt64) : Option UInt64 :=
  if a.toNat + b.toNat < UInt64.size then some (a + b) else none

/-- The last offset there is. -/
def last : UInt64 := .ofNat (UInt64.size - 1)

/-- The sum of two offsets, cut off at the last one. -/
def addCut (a b : UInt64) : UInt64 := (add? a b).getD last

end Word

/-- The result of one attempt to match, with offsets of 64 bits. -/
inductive WordOutcome where
  | matched (start stop : UInt64)
  | noMatch (index : UInt64)
deriving DecidableEq

/-- The same outcome, with offsets of any size. -/
def WordOutcome.toOutcome : WordOutcome → Outcome
  | matched start stop => .ofBounds start.toNat stop.toNat
  | noMatch index => .noMatchAt index.toNat

namespace Input

/-- The number of characters, as an offset. -/
def wordLength (input : Input) : UInt64 := .ofNat input.length

/-- The characters from `start` up to `stop`, if these are in order and inside the text. -/
def part? (input : Input) (start stop : UInt64) : Option (Array Char) :=
  if start ≤ stop ∧ stop ≤ input.wordLength then
    some (input.chars.extract start.toNat stop.toNat)
  else none

end Input

namespace Primitive

/-- A failure at an offset, or at the end of the text if that is before. -/
def failWord (input : Input) (pos : UInt64) : WordOutcome := .noMatch (min pos input.wordLength)

/-- Takes the one character at an offset, if it is as it should be. -/
def takeWord (wanted : Char → Bool) (input : Input) (pos : UInt64) : Option WordOutcome :=
  match input.charAt? pos.toNat with
  | some c => if wanted c then (Word.add? pos 1).map (.matched pos) else some (failWord input pos)
  | none => some (failWord input pos)

/-- One attempt to match at an offset of 64 bits. -/
def attemptWord (p : Primitive) (input : Input) (pos : UInt64) : Option WordOutcome :=
  match p with
  | any =>
    if pos < input.wordLength then (Word.add? pos 1).map (.matched pos)
    else some (failWord input pos)
  | range chars => takeWord chars.contains input pos
  | set chars => takeWord chars.contains input pos
  | literal text =>
    -- a literal that would go beyond the last offset is compared with too short a part
    let stop := Word.addCut pos (.ofNat text.size)
    if input.part? pos stop = some text then some (.matched pos stop)
    else some (failWord input pos)
  | eof => if pos = input.wordLength then some (.matched pos pos) else some (failWord input pos)

end Primitive

end Packrat
