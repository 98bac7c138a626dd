import Packrat.Decimal.Shortest
import Packrat.Json.Byte
import Packrat.Json.Defect

/-!
# Numbers in JSON texts

* `skipNumber`: passes over a number from behind its sign, checking its form only.
* `readNumber`: the value of a number from behind its sign. Whole numbers are kept as they are
  as far as 64 bits go; all others are the binary number that is reached from their first digits
  (as many as fit 64 bits) by one multiplication with or division by a power of ten.
-/

namespace Packrat

/-- The value of a number. -/
inductive JsonNumber where
  | whole (value : Int)
  | binary (value : Decimal)
deriving DecidableEq

namespace Json

/-- Passes over an exponent from behind its mark. -/
def skipExponent (s : Bytes) : Except JsonDefect Bytes :=
  let unsigned :=
    match s with
    | Byte.plus :: rest => rest
    | Byte.minus :: rest => rest
    | _ => s
  match unsigned with
  | [] => .error .invalidNumber
  | b :: rest => if Byte.isDigit b then .ok (skipDigits rest) else .error .invalidNumber

/-- Passes over an exponent, if there is one. -/
def skipExponentPart (s : Bytes) : Except JsonDefect Bytes :=
  match s with
  | [] => .ok []
  | b :: rest => if Byte.isExponentMark b then skipExponent rest else .ok s

/-- Passes over a fraction and an exponent, if there are any. -/
def skipFractionPart (s : Bytes) : Except JsonDefect Bytes :=
  match s with
  | Byte.dot :: rest =>
    match rest with
    | [] => .error .invalidNumber
    | b :: digits =>
      if Byte.isDigit b then skipExponentPart (skipDigits digits) else .error .invalidNumber
  | _ => skipExponentPart s

/-- Passes over a number from behind its sign. A zero in front of another digit is refused. -/
def skipNumber (s : Bytes) : Except JsonDefect Bytes :=
  match s with
  | [] => .error .invalidNumber
  | Byte.zero :: rest =>
    match rest with
    | [] => skipFractionPart rest
    | b :: _ => if Byte.isDigit b then .error .invalidNumber else skipFractionPart rest
  | b :: rest =>
    if Byte.isDigit b then skipFractionPart (skipDigits rest) else .error .invalidNumber

theorem length_skipExponent {s r : Bytes} (h : skipExponent s = .ok r) :
    r.length < s.length := by
  simp only [skipExponent] at h
  split at h
  · simp at h
  · rename_i b rest hu
    split at h
    · simp only [Except.ok.injEq] at h
      subst h
      have hd := length_skipDigits_le rest
      split at hu
      · subst hu; simp only [List.length_cons]; omega
      · subst hu; simp only [List.length_cons]; omega
      · subst hu; simp only [List.length_cons]; omega
    · simp at h

theorem length_skipExponentPart {s r : Bytes} (h : skipExponentPart s = .ok r) :
    r.length ≤ s.length := by
  unfold skipExponentPart at h
  split at h
  · simp_all
  · split at h
    · have := length_skipExponent h
      simp only [List.length_cons]; omega
    · simp_all

theorem length_skipFractionPart {s r : Bytes} (h : skipFractionPart s = .ok r) :
    r.length ≤ s.length := by
  unfold skipFractionPart at h
  split at h
  · split at h
    · simp at h
    · rename_i digits
      split at h
      · have := length_skipExponentPart h
        have := length_skipDigits_le digits
        simp only [List.length_cons]; omega
      · simp at h
  · exact length_skipExponentPart h

theorem length_skipNumber {s r : Bytes} (h : skipNumber s = .ok r) : r.length < s.length := by
  unfold skipNumber at h
  split at h
  · simp at h
  · rename_i rest
    have : r.length ≤ rest.length := by
      split at h
      · exact length_skipFractionPart h
      · split at h
        · simp at h
        · exact length_skipFractionPart h
    simp only [List.length_cons]; omega
  · rename_i b rest _
    split at h
    · have := length_skipFractionPart h
      have := length_skipDigits_le rest
      simp only [List.length_cons]; omega
    · simp at h

/-- Reads digits behind a significand as long as it stays below `2 ^ 64`. -/
def takeDigits (significand : Nat) (s : Bytes) : Nat × Bytes :=
  match s with
  | [] => (significand, [])
  | b :: rest =>
    let next := significand * 10 + Byte.digitValue b
    if Byte.isDigit b ∧ next < 2 ^ 64 then takeDigits next rest else (significand, s)

/-- A power of ten, up to the 308th. -/
def powerOfTen (k : Nat) : Float := Float.ofScientific 1 false k

/-- Divides by a power of ten of any size, in steps of `10 ^ 308`. Three such steps leave zero
of any number below `2 ^ 64`, so no more than three are ever needed. -/
def divideByPower (value : Float) (k : Nat) : Nat → Float
  | 0 => value
  | steps + 1 =>
    if k ≤ 308 then value / powerOfTen k
    else divideByPower (value / powerOfTen 308) (k - 308) steps

/-- The binary number for a significand and an exponent of ten. -/
def scale (negative : Bool) (significand : Nat) (exponent : Int) : Except JsonDefect JsonNumber :=
  let value := significand.toUInt64.toFloat
  let scaled :=
    if exponent < 0 then some (divideByPower value (-exponent).toNat 3)
    else if significand = 0 then some value
    else if 308 < exponent then none
    else
      let product := value * powerOfTen exponent.toNat
      if product.isInf then none else some product
  match scaled with
  | none => .error .numberOutOfRange
  | some x => .ok (.binary (.ofBits (if negative then -x else x).toBits))

/-- The number with an exponent, from behind the exponent's mark. -/
def readExponent (negative : Bool) (significand : Nat) (exponent : Int) (s : Bytes) :
    Except JsonDefect JsonNumber :=
  let (down, unsigned) :=
    match s with
    | Byte.plus :: rest => (false, rest)
    | Byte.minus :: rest => (true, rest)
    | _ => (false, s)
  match unsigned with
  | [] => .error .endInValue
  | b :: _ =>
    if Byte.isDigit b then
      let shown := (unsigned.takeWhile Byte.isDigit).foldl (10 * · + Byte.digitValue ·) 0
      scale negative significand (if down then exponent - shown else exponent + shown)
    else .error .invalidNumber

/-- The number with an exponent, if there is one. -/
def readExponentPart (negative : Bool) (significand : Nat) (exponent : Int) (s : Bytes) :
    Except JsonDefect JsonNumber :=
  match s with
  | [] => scale negative significand exponent
  | b :: rest =>
    if Byte.isExponentMark b then readExponent negative significand exponent rest
    else scale negative significand exponent

/-- The number with a fraction, from behind the point. Digits that do not fit any more are
dropped. -/
def readFraction (negative : Bool) (significand : Nat) (exponent : Int) (s : Bytes) :
    Except JsonDefect JsonNumber :=
  match s with
  | [] => .error .endInValue
  | b :: _ =>
    if Byte.isDigit b then
      let (significand, rest) := takeDigits significand s
      let exponent := exponent - (s.length - rest.length : Nat)
      readExponentPart negative significand exponent (skipDigits rest)
    else .error .invalidNumber

/-- A whole number with its sign; one that 64 bits do not hold is a binary number. -/
def wholeNumber (negative : Bool) (significand : Nat) : Except JsonDefect JsonNumber :=
  if negative then
    if significand = 0 ∨ 0x8000000000000000 < significand then scale true significand 0
    else .ok (.whole (-significand))
  else .ok (.whole significand)

/-- The number whose first digits make the significand, from behind them. -/
def readTail (negative : Bool) (significand : Nat) (s : Bytes) : Except JsonDefect JsonNumber :=
  let (significand, rest) := takeDigits significand s
  let tail := skipDigits rest
  let dropped : Int := (rest.length - tail.length : Nat)
  match tail with
  | Byte.dot :: fraction => readFraction negative significand dropped fraction
  | b :: exponent =>
    if Byte.isExponentMark b then readExponent negative significand dropped exponent
    else if dropped = 0 then wholeNumber negative significand
    else scale negative significand dropped
  | [] =>
    if dropped = 0 then wholeNumber negative significand
    else scale negative significand dropped

/-- The value of a number from behind its sign. -/
def readNumber (negative : Bool) (s : Bytes) : Except JsonDefect JsonNumber :=
  match s with
  | [] => .error .endInValue
  | Byte.zero :: rest =>
    match rest with
    | [] => wholeNumber negative 0
    | b :: _ => if Byte.isDigit b then .error .invalidNumber else readTail negative 0 rest
  | b :: rest =>
    if Byte.isDigit b then readTail negative (Byte.digitValue b) rest else .error .invalidNumber

end Json

end Packrat
