import Packrat.Text.Extender
import Packrat.Text.Unprintable

/-!
# Quoted text

Three written forms of characters, all with backslash escapes.

* `quoteChar`: one character between single quotes, as in `'a'`.
* `quoteString`: a text between double quotes, as in `"a\tb"`.
* `quoteAscii`: a text between single quotes in which all but printable ASCII is escaped.

The first two leave printable characters of any script as they are; an extender is escaped
even so, since it would be drawn on the character before it.
-/

namespace Packrat.Text

/-- The code point of a character in lower-case hexadecimal, between `\u{` and `}`. -/
def escapeCodePoint (c : Char) : List Char :=
  ['\\', 'u', '{'] ++ Nat.toDigits 16 c.toNat ++ ['}']

/-- A backslash before the character itself. -/
def escapeSelf (c : Char) : List Char := ['\\', c]

/-- One character of a quoted form with the given quote. -/
def showChar (quote c : Char) : List Char :=
  if c = '\x00' then escapeSelf '0'
  else if c = '\t' then escapeSelf 't'
  else if c = '\r' then escapeSelf 'r'
  else if c = '\n' then escapeSelf 'n'
  else if c = quote ∨ c = '\\' then escapeSelf c
  else if ' ' ≤ c ∧ c ≤ '~' then [c]
  else if isExtender c || !isPrintable c then escapeCodePoint c
  else [c]

/-- A character between single quotes. -/
def quoteChar (c : Char) : String := String.ofList ('\'' :: showChar '\'' c ++ ['\''])

/-- A text between double quotes. -/
def quoteString (s : String) : String :=
  String.ofList ('"' :: s.toList.flatMap (showChar '"') ++ ['"'])

/-- One character of the form that is all printable ASCII; it escapes quotes of both kinds. -/
def showAscii (c : Char) : List Char :=
  if c = '\t' then escapeSelf 't'
  else if c = '\r' then escapeSelf 'r'
  else if c = '\n' then escapeSelf 'n'
  else if c = '\'' ∨ c = '"' ∨ c = '\\' then escapeSelf c
  else if ' ' ≤ c ∧ c ≤ '~' then [c]
  else escapeCodePoint c

/-- A text between single quotes, in printable ASCII. -/
def quoteAscii (s : List Char) : String := String.ofList ('\'' :: s.flatMap showAscii ++ ['\''])

end Packrat.Text
