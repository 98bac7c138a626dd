import Packrat.Decimal

/-!
# Shortest decimals

Of all decimals that are read back as one binary number of 64 bits, the one with the fewest
digits, and of those the nearest. All steps are exact.

* `Binary.ofBits`: the parts of a binary number.
* `Binary.onGrid?`: the nearest multiple of a power of ten that is read back as the number.
* `Decimal.ofBits`: the shortest decimal.
-/

namespace Packrat

/-- A finite binary number: `mantissa * 2 ^ exponent`, or its negative. The next smaller number
is nearer than the next greater one when the mantissa is the least of its size. -/
structure Binary where
  negative : Bool
  mantissa : Nat
  exponent : Int
  isLeast : Bool
deriving DecidableEq

namespace Binary

/-- The parts of a number of 64 bits: a sign, 11 bits of exponent, 52 bits of mantissa. -/
def ofBits (bits : UInt64) : Binary :=
  let biased := (bits >>> 52 &&& 0x7ff).toNat
  let fraction := (bits &&& 0xfffffffffffff).toNat
  { negative := bits >>> 63 = 1
    mantissa := if biased = 0 then fraction else fraction + 0x10000000000000
    exponent := (max biased 1 : Nat) - (1075 : Int)
    isLeast := fraction = 0 ∧ 1 < biased }

/-- The multiple of `10 ^ k` that is nearest to a number without its sign, if it is read back
as that number. It is read back if it lies no farther from the number than half way to the next
ones; a point exactly half way goes to the even mantissa. Everything is counted in quarters of
the unit of the mantissa. -/
def onGrid? (x : Binary) (k : Int) : Option Nat :=
  let e := x.exponent - 2
  let step := Nat.pow 10 k.toNat * Nat.pow 2 (-e).toNat
  let unit := Nat.pow 2 e.toNat * Nat.pow 10 (-k).toNat
  let low := (4 * x.mantissa - if x.isLeast then 1 else 2) * unit
  let value := 4 * x.mantissa * unit
  let high := (4 * x.mantissa + 2) * unit
  let readsBack (c : Nat) : Bool :=
    if x.mantissa % 2 = 0 then low ≤ c * step && c * step ≤ high
    else low < c * step && c * step < high
  let below := value / step
  let above := below + 1
  let nearer :=
    match compare (value - below * step) (above * step - value) with
    | .lt => below
    | .gt => above
    | .eq => if below % 2 = 0 then below else above
  let farther := if nearer = below then above else below
  if readsBack nearer then some nearer else if readsBack farther then some farther else none

end Binary

/-- The shortest decimal that is read back as the finite number with these bits: the first grid
of multiples of a power of ten, from the widest on, that has such a multiple. -/
def Decimal.ofBits (bits : UInt64) : Decimal :=
  let x := Binary.ofBits bits
  if x.mantissa = 0 then ⟨x.negative, 0, 0⟩
  else
    let found := (List.range 634).findSome? fun (i : Nat) =>
      let k := 309 - (i : Int)
      (x.onGrid? k).map fun digits => Decimal.mk x.negative digits k
    found.getD ⟨x.negative, 0, 0⟩

end Packrat
