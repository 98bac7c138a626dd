/-!
# The grammar of JSON

Which texts are JSON, by characters and apart from any reader. A value is derived from its parts
as they are written, white space and all. What it stands for is left open, but for strings: a
key is known by the text that it spells, and so is a mode.

* `Blank`, `IsNumber`, `IsText`: white space, numbers, and strings between their quotes.
* `Spells`: a string that stands for a text, with its escapes undone.
* `Derives`: **values, with all that may stand in them.**
* `IsObject`: an object with its members, each with its key and its value as it is written.
-/

namespace Packrat.Json

/-- White space: spaces, tabs, line feeds and carriage returns. -/
def Blank (ws : List Char) : Prop :=
  ∀ c ∈ ws, c = ' ' ∨ c = '\t' ∨ c = '\n' ∨ c = '\r'

instance (ws : List Char) : Decidable (Blank ws) := List.decidableBAll _ ws

/-! ### Strings -/

/-- A character that may stand in a string as it is. -/
def IsPlain (c : Char) : Prop := c ≠ '"' ∧ c ≠ '\\' ∧ ' ' ≤ c

instance (c : Char) : Decidable (IsPlain c) :=
  inferInstanceAs (Decidable (c ≠ '"' ∧ c ≠ '\\' ∧ ' ' ≤ c))

/-- The letters that may stand behind a backslash, each with the character it stands for. -/
def shortEscapes : List (Char × Char) :=
  [('"', '"'), ('\\', '\\'), ('/', '/'), ('b', '\x08'), ('f', '\x0c'), ('n', '\n'), ('r', '\r'),
    ('t', '\t')]

/-- The value of a hexadecimal digit, in either case. -/
def hexDigit? (c : Char) : Option Nat :=
  if '0' ≤ c ∧ c ≤ '9' then some (c.toNat - '0'.toNat)
  else if 'a' ≤ c ∧ c ≤ 'f' then some (10 + (c.toNat - 'a'.toNat))
  else if 'A' ≤ c ∧ c ≤ 'F' then some (10 + (c.toNat - 'A'.toNat))
  else none

/-- The number that four hexadecimal digits stand for. -/
def hexNumber? : List Char → Option Nat
  | [a, b, c, d] => do
    return 4096 * (← hexDigit? a) + 256 * (← hexDigit? b) + 16 * (← hexDigit? c) + (← hexDigit? d)
  | _ => none

/-- What may stand between the quotes of a string. -/
inductive IsText : List Char → Prop
  | nil : IsText []
  | plain {c : Char} {w : List Char} (hc : IsPlain c) (h : IsText w) : IsText (c :: w)
  | short {letter c : Char} {w : List Char} (hc : (letter, c) ∈ shortEscapes) (h : IsText w) :
    IsText ('\\' :: letter :: w)
  | hex {digits w : List Char} {n : Nat} (hn : hexNumber? digits = some n) (h : IsText w) :
    IsText ('\\' :: 'u' :: (digits ++ w))

/-- What stands between the quotes of a string, and the text that it stands for: a surrogate
stands for nothing on its own, and two of them for the character of the pair. -/
inductive Spells : List Char → List Char → Prop
  | nil : Spells [] []
  | plain {c : Char} {w text : List Char} (hc : IsPlain c) (h : Spells w text) :
    Spells (c :: w) (c :: text)
  | short {letter c : Char} {w text : List Char} (hc : (letter, c) ∈ shortEscapes)
    (h : Spells w text) : Spells ('\\' :: letter :: w) (c :: text)
  | hex {digits w text : List Char} {n : Nat} (hn : hexNumber? digits = some n)
    (hs : ¬ (0xd800 ≤ n ∧ n ≤ 0xdfff)) (h : Spells w text) :
    Spells ('\\' :: 'u' :: (digits ++ w)) (Char.ofNat n :: text)
  | pair {digits digits' w text : List Char} {leading trailing : Nat}
    (hl : hexNumber? digits = some leading) (hls : 0xd800 ≤ leading ∧ leading ≤ 0xdbff)
    (ht : hexNumber? digits' = some trailing) (hts : 0xdc00 ≤ trailing ∧ trailing ≤ 0xdfff)
    (h : Spells w text) :
    Spells ('\\' :: 'u' :: (digits ++ '\\' :: 'u' :: (digits' ++ w)))
      (Char.ofNat (0x10000 + (leading - 0xd800) * 0x400 + (trailing - 0xdc00)) :: text)

/-- What spells a text may stand between quotes anywhere. -/
theorem Spells.isText {w text : List Char} (h : Spells w text) : IsText w := by
  induction h with
  | nil => exact .nil
  | plain hc _ ih => exact .plain hc ih
  | short hc _ ih => exact .short hc ih
  | hex hn _ _ ih => exact .hex hn ih
  | pair hl _ ht _ _ ih => exact .hex hl (.hex ht ih)

/-- A text of characters that may stand as they are is spelled by itself. -/
theorem spells_self {w : List Char} (h : w.all (IsPlain ·) = true) : Spells w w := by
  induction w with
  | nil => exact .nil
  | cons c w ih =>
    rw [List.all_cons, Bool.and_eq_true, decide_eq_true_eq] at h
    exact .plain h.1 (ih h.2)

/-! ### Numbers -/

/-- Decimal digits, at least one. -/
def IsDigits (w : List Char) : Prop := w ≠ [] ∧ ∀ c ∈ w, '0' ≤ c ∧ c ≤ '9'

/-- A whole number: zero, or digits that do not begin with it. -/
def IsWhole (w : List Char) : Prop := w = ['0'] ∨ IsDigits w ∧ w.head? ≠ some '0'

/-- A fraction with its point, or nothing. -/
def IsFraction (w : List Char) : Prop := w = [] ∨ ∃ digits, w = '.' :: digits ∧ IsDigits digits

/-- An exponent with its mark and perhaps a sign, or nothing. -/
def IsExponent (w : List Char) : Prop :=
  w = [] ∨ ∃ mark sign digits, w = mark :: (sign ++ digits) ∧ (mark = 'e' ∨ mark = 'E') ∧
    (sign = [] ∨ sign = ['+'] ∨ sign = ['-']) ∧ IsDigits digits

/-- A number. -/
def IsNumber (w : List Char) : Prop :=
  ∃ sign whole fraction exponent, w = sign ++ (whole ++ (fraction ++ exponent)) ∧
    (sign = [] ∨ sign = ['-']) ∧ IsWhole whole ∧ IsFraction fraction ∧ IsExponent exponent

/-! ### Values -/

/-- What is derived: a value, a value with white space around it, such values with commas
between them, a member of an object, and members with commas between them. -/
inductive Phrase where
  | value
  | element
  | elements
  | member
  | members

/-- The texts of a phrase. -/
inductive Derives : Phrase → List Char → Prop
  | null : Derives .value ['n', 'u', 'l', 'l']
  | yes : Derives .value ['t', 'r', 'u', 'e']
  | no : Derives .value ['f', 'a', 'l', 's', 'e']
  | number {w : List Char} (h : IsNumber w) : Derives .value w
  | text {w : List Char} (h : IsText w) : Derives .value ('"' :: (w ++ ['"']))
  | emptyList {ws : List Char} (h : Blank ws) : Derives .value ('[' :: (ws ++ [']']))
  | list {w : List Char} (h : Derives .elements w) : Derives .value ('[' :: (w ++ [']']))
  | emptyObject {ws : List Char} (h : Blank ws) : Derives .value ('{' :: (ws ++ ['}']))
  | object {w : List Char} (h : Derives .members w) : Derives .value ('{' :: (w ++ ['}']))
  | element {before w behind : List Char} (hbefore : Blank before) (h : Derives .value w)
    (hbehind : Blank behind) : Derives .element (before ++ (w ++ behind))
  | lastElement {w : List Char} (h : Derives .element w) : Derives .elements w
  | moreElements {w more : List Char} (h : Derives .element w) (hmore : Derives .elements more) :
    Derives .elements (w ++ ',' :: more)
  | member {before key behind w : List Char} (hbefore : Blank before) (hkey : IsText key)
    (hbehind : Blank behind) (h : Derives .element w) :
    Derives .member (before ++ '"' :: (key ++ '"' :: (behind ++ ':' :: w)))
  | lastMember {w : List Char} (h : Derives .member w) : Derives .members w
  | moreMembers {w more : List Char} (h : Derives .member w) (hmore : Derives .members more) :
    Derives .members (w ++ ',' :: more)

/-! ### Objects with their members -/

/-- A member of an object: its key as a text, and its value as it is written. -/
structure Member where
  key : String
  value : List Char
deriving DecidableEq

/-- A member as it is written, with white space around its parts. -/
inductive IsMember : List Char → Member → Prop
  | mk {before written behind ahead value rest : List Char} {key : String} (hbefore : Blank before)
    (hkey : Spells written key.toList) (hbehind : Blank behind) (hahead : Blank ahead)
    (hvalue : Derives .value value) (hrest : Blank rest) :
    IsMember (before ++ '"' :: (written ++ '"' :: (behind ++ ':' :: (ahead ++ (value ++ rest)))))
      ⟨key, value⟩

/-- Members as they are written, with commas between them. -/
inductive AreMembers : List Char → List Member → Prop
  | last {w : List Char} {m : Member} (h : IsMember w m) : AreMembers w [m]
  | more {w more : List Char} {m : Member} {members : List Member} (h : IsMember w m)
    (hmore : AreMembers more members) : AreMembers (w ++ ',' :: more) (m :: members)

/-- An object as it is written, with white space around it. -/
inductive IsObject : List Char → List Member → Prop
  | empty {before inside behind : List Char} (hbefore : Blank before) (hinside : Blank inside)
    (hbehind : Blank behind) : IsObject (before ++ '{' :: (inside ++ '}' :: behind)) []
  | full {before w behind : List Char} {members : List Member} (hbefore : Blank before)
    (h : AreMembers w members) (hbehind : Blank behind) :
    IsObject (before ++ '{' :: (w ++ '}' :: behind)) members

end Packrat.Json
