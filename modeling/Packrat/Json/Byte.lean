/-!
# Bytes of JSON texts

The package for settings reads a JSON text byte by byte. Here are names for the bytes that
matter, all of them ASCII, and the classes of bytes.

* `bytesOf`: a text as bytes.
* `Byte.isBlank`, `Byte.isDigit`, `Byte.isControl`: classes.
* `Byte.hexValue?`: the value of a hexadecimal digit.
* `skipBlanks`: drops white space.
-/

namespace Packrat.Json

/-- A text that is still to be read. -/
abbrev Bytes := List UInt8

/-- A text as its bytes in UTF-8. -/
def bytesOf (text : String) : Bytes := text.toUTF8.data.toList

namespace Byte

/-- The byte of an ASCII character. -/
abbrev of (c : Char) : UInt8 := c.toUInt8

@[match_pattern] abbrev quote : UInt8 := 0x22
@[match_pattern] abbrev plus : UInt8 := 0x2b
@[match_pattern] abbrev comma : UInt8 := 0x2c
@[match_pattern] abbrev minus : UInt8 := 0x2d
@[match_pattern] abbrev dot : UInt8 := 0x2e
@[match_pattern] abbrev zero : UInt8 := 0x30
@[match_pattern] abbrev colon : UInt8 := 0x3a
@[match_pattern] abbrev openBracket : UInt8 := 0x5b
@[match_pattern] abbrev backslash : UInt8 := 0x5c
@[match_pattern] abbrev closeBracket : UInt8 := 0x5d
@[match_pattern] abbrev letterF : UInt8 := 0x66
@[match_pattern] abbrev letterN : UInt8 := 0x6e
@[match_pattern] abbrev letterT : UInt8 := 0x74
@[match_pattern] abbrev letterU : UInt8 := 0x75
@[match_pattern] abbrev openBrace : UInt8 := 0x7b
@[match_pattern] abbrev closeBrace : UInt8 := 0x7d

/-- Space, tab, line feed and carriage return. -/
def isBlank (b : UInt8) : Bool := b == 0x20 || b == 0x09 || b == 0x0a || b == 0x0d

def isDigit (b : UInt8) : Bool := 0x30 ≤ b && b ≤ 0x39

/-- The value of a decimal digit. -/
def digitValue (b : UInt8) : Nat := b.toNat - 0x30

/-- The control characters, which must not stand in a string as they are. -/
def isControl (b : UInt8) : Bool := b < 0x20

/-- The letter that marks an exponent. -/
def isExponentMark (b : UInt8) : Bool := b == 0x65 || b == 0x45

/-- The value of a hexadecimal digit in either case. -/
def hexValue? (b : UInt8) : Option Nat :=
  if isDigit b then some (b.toNat - 0x30)
  else if 0x61 ≤ b && b ≤ 0x66 then some (b.toNat - 0x57)
  else if 0x41 ≤ b && b ≤ 0x46 then some (b.toNat - 0x37)
  else none

end Byte

/-- Drops white space. -/
def skipBlanks (s : Bytes) : Bytes := s.dropWhile Byte.isBlank

/-- Drops decimal digits. -/
def skipDigits (s : Bytes) : Bytes := s.dropWhile Byte.isDigit

theorem length_skipBlanks_le (s : Bytes) : (skipBlanks s).length ≤ s.length :=
  (List.dropWhile_sublist _).length_le

theorem length_skipDigits_le (s : Bytes) : (skipDigits s).length ≤ s.length :=
  (List.dropWhile_sublist _).length_le

end Packrat.Json
