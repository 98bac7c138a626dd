import Packrat.CharSet.Sorted
import Packrat.CharSet.Spec

/-!
# Character sets

The characters that a spec lists. The ones that stand for themselves are kept in order, each
once, and are looked up by halving; ranges are tried one after another.

* `CharSet.ofSpec`: the set of a spec, or what is wrong with the spec.
* `CharSet.contains`: membership.
-/

namespace Packrat

/-- A set of characters, with the spec that it was made from. -/
structure CharSet where
  spec : String
  singles : Array Char
  ranges : List (Char × Char)
deriving DecidableEq

namespace CharSet

/-- The characters that stand for themselves among some items, in the order of the items. -/
def singlesOf (items : List SpecItem) : List Char :=
  items.filterMap fun
    | .single c => some c
    | .range .. => none

/-- The ranges among some items. -/
def rangesOf (items : List SpecItem) : List (Char × Char) :=
  items.filterMap fun
    | .single _ => none
    | .range lo hi => some (lo, hi)

/-- The set of the characters that some items take in. -/
def ofItems (spec : String) (items : List SpecItem) : CharSet where
  spec := spec
  singles := (dropRepeats ((singlesOf items).mergeSort (· ≤ ·))).toArray
  ranges := rangesOf items

/-- The set that a spec describes. -/
def ofSpec (spec : String) : Except SpecDefect CharSet :=
  (Spec.parse spec.toList).map (ofItems spec)

def contains (set : CharSet) (c : Char) : Bool :=
  searchSorted set.singles c 0 set.singles.size ||
    set.ranges.any fun (lo, hi) => lo ≤ c && c ≤ hi

/-- The spec between square brackets. -/
def written (set : CharSet) : String := "[" ++ set.spec ++ "]"

end CharSet

end Packrat
