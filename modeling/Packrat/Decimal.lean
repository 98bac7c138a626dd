/-!
# Decimals

Numbers with finitely many decimal digits, and how they are written.

* `Decimal.Layout`: which exponents are written out in full, and how the others are written.
* `Decimal.write`: a decimal by a layout.
-/

namespace Packrat

/-- The number `digits * 10 ^ exponent`, or its negative. -/
structure Decimal where
  negative : Bool
  digits : Nat
  exponent : Int
deriving DecidableEq

namespace Decimal

/-- How decimals are written. The exponent of a number is here the one of its first digit. -/
structure Layout where
  /-- The least exponent that is written out in full. -/
  leastPlain : Int
  /-- The greatest exponent that is written out in full. -/
  greatestPlain : Int
  /-- What stands behind a whole number that is written out in full. -/
  wholeMark : String
  /-- The sign of exponents that are not negative. -/
  plusMark : String

/-- An exponent behind its mark. -/
def Layout.writeExponent (layout : Layout) (exponent : Int) : String :=
  "e" ++ (if exponent < 0 then "-" else layout.plusMark) ++
    String.ofList (Nat.toDigits 10 exponent.natAbs)

/-- A number that is not negative. -/
def writeUnsigned (layout : Layout) (digits : Nat) (exponent : Int) : String :=
  let shown := Nat.toDigits 10 digits
  let point : Int := shown.length + exponent
  let first := point - 1
  if digits = 0 then "0" ++ layout.wholeMark
  else if layout.leastPlain ≤ first ∧ first ≤ layout.greatestPlain then
    if 0 ≤ exponent then
      String.ofList (shown ++ List.replicate exponent.toNat '0') ++ layout.wholeMark
    else if 0 < point then
      String.ofList (shown.take point.toNat ++ '.' :: shown.drop point.toNat)
    else String.ofList ('0' :: '.' :: List.replicate (-point).toNat '0' ++ shown)
  else
    let tail := shown.drop 1
    String.ofList (shown.take 1 ++ if tail.isEmpty then [] else '.' :: tail) ++
      layout.writeExponent first

/-- A decimal by a layout. -/
def write (layout : Layout) (d : Decimal) : String :=
  (if d.negative then "-" else "") ++ writeUnsigned layout d.digits d.exponent

end Decimal

end Packrat
