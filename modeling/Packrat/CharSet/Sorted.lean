/-!
# Sorted characters

* `dropRepeats`: each character of a sorted list once.
* `searchSorted`: looks a character up in a sorted array by halving.
-/

namespace Packrat

/-- Drops from a list each element that equals the one before it. -/
def dropRepeats : List Char → List Char
  | [] => []
  | [c] => [c]
  | c :: d :: rest => if c = d then dropRepeats (d :: rest) else c :: dropRepeats (d :: rest)

/-- Whether `c` is among the characters of a sorted array at places from `low` up to, not
including, `high`. -/
def searchSorted (sorted : Array Char) (c : Char) (low high : Nat) : Bool :=
  if _h : low < high then
    let middle := (low + high) / 2
    match sorted[middle]? with
    | none => false
    | some d =>
      if d = c then true
      else if d < c then searchSorted sorted c (middle + 1) high
      else searchSorted sorted c low middle
  else false
termination_by high - low

end Packrat
