/-!
# Specs of character sets

A set of characters is given by a compact spec, as in `a-z$_A-Z`: two characters with a dash
between them are a range, any other character stands for itself, and a dash stands nowhere
else. There are no escapes.

* `Spec.split`: cuts a spec into items from the left, as far as it goes.
* `Spec.parse`: the items of a spec, or what is wrong with it.
* `Spec.write`: the spec made of some items.
-/

namespace Packrat

/-- One part of a spec. -/
inductive SpecItem where
  | single (c : Char)
  | range (lo hi : Char)
deriving DecidableEq

/-- What is wrong with a spec. -/
inductive SpecDefect where
  /-- There is nothing in it. -/
  | empty
  /-- The dash after the first `offset` characters stands between no two characters. -/
  | danglingDash (offset : Nat)
  /-- The bounds of a range are the wrong way round. -/
  | reversedRange (lo hi : Char)
deriving DecidableEq

namespace SpecItem

/-- The characters of one item. -/
def write : SpecItem → List Char
  | single c => [c]
  | range lo hi => [lo, '-', hi]

/-- The bounds of an item that is a range the wrong way round. -/
def reversed? : SpecItem → Option (Char × Char)
  | single _ => none
  | range lo hi => if hi < lo then some (lo, hi) else none

/-- Whether an item takes in a character. -/
def Holds (c : Char) : SpecItem → Prop
  | single d => c = d
  | range lo hi => lo ≤ c ∧ c ≤ hi

end SpecItem

/-- What is said of a defect. -/
def SpecDefect.message : SpecDefect → String
  | empty => "empty set"
  | danglingDash offset => s!"dangling '-' at offset {offset}"
  | reversedRange lo hi => s!"reversed range {lo}-{hi}"

namespace Spec

/-- The spec made of some items. -/
def write (items : List SpecItem) : List Char := items.flatMap SpecItem.write

/-- Cuts a spec into items from the left and returns them with what is left over. A range is
taken wherever there is one; what is left over is empty or begins with a dash. -/
def split : List Char → List SpecItem × List Char
  | [] => ([], [])
  | '-' :: rest => ([], '-' :: rest)
  | lo :: '-' :: hi :: rest =>
    if hi = '-' then ([.single lo], '-' :: hi :: rest)
    else
      let (items, left) := split rest
      (.range lo hi :: items, left)
  | c :: rest =>
    let (items, left) := split rest
    (.single c :: items, left)

/-- The items of a spec. A dash out of place counts before a range the wrong way round. -/
def parse (spec : List Char) : Except SpecDefect (List SpecItem) :=
  if spec.isEmpty then .error .empty
  else
    let (items, left) := split spec
    if left.isEmpty then
      match items.findSome? SpecItem.reversed? with
      | none => .ok items
      | some (lo, hi) => .error (.reversedRange lo hi)
    else .error (.danglingDash (spec.length - left.length))

end Spec

end Packrat
