import Packrat.Text.Quoted

/-!
# Character ranges

The characters from one to another, both included, in the order of code points.
-/

namespace Packrat

/-- The characters from `lo` to `hi`. -/
structure CharRange where
  lo : Char
  hi : Char
  lo_le_hi : lo ≤ hi
deriving DecidableEq

namespace CharRange

/-- The range between two characters, unless the first comes after the second. -/
def ofBounds? (lo hi : Char) : Option CharRange :=
  if h : lo ≤ hi then some ⟨lo, hi, h⟩ else none

def contains (range : CharRange) (c : Char) : Bool := range.lo ≤ c && c ≤ range.hi

/-- Both characters quoted, with two dots between them, as in `'a'..'f'`. -/
def written (range : CharRange) : String :=
  Text.quoteChar range.lo ++ ".." ++ Text.quoteChar range.hi

theorem contains_iff {range : CharRange} {c : Char} :
    range.contains c = true ↔ range.lo ≤ c ∧ c ≤ range.hi := by
  simp [contains]

end CharRange

end Packrat
