import Packrat.Config.Loading
import Packrat.Config.Value

/-!
# A package for settings

The package that programs of this library are run with. What is proved of loading settings is
proved of every package that keeps the laws of one, and this one is shown to keep them. Settings
are a JSON object with the members `memoize` and `default_mode`, or a list of their values in this
order. What is missing takes its default; other members of an object are passed over.

* `Config.readKey`, `Config.readValue`, `Config.readIgnored`: the parts of an object.
* `Config.readMember`, `Config.readMembers`: a member, and all of them.
* `Config.readSettings`: an object or a list.
* `Config.package`: the package; `Config.ofString` and `Config.ofFile` load settings with it.
-/

namespace Packrat.Config

open Json

/-! ### Parts of an object -/

/-- A key, from behind its opening quote. -/
def readOpenedKey (s : Bytes) : Except ConfigDefect (Option String × Bytes) := do
  let (key, rest) ← json (readText s)
  return (some key, rest)

/-- The first key of an object, from behind the opening brace, if the object is not closed. -/
def readFirstKey (s : Bytes) : Except ConfigDefect (Option String × Bytes) :=
  match skipBlanks s with
  | [] => .error (.json .endInObject)
  | Byte.closeBrace :: rest => .ok (none, rest)
  | Byte.quote :: rest => readOpenedKey rest
  | _ => .error (.json .keyMustBeString)

/-- The key that must stand behind a comma. -/
def readKeyBehindComma (s : Bytes) : Except ConfigDefect (Option String × Bytes) :=
  match skipBlanks s with
  | [] => .error (.json .endInValue)
  | Byte.quote :: rest => readOpenedKey rest
  | Byte.closeBrace :: _ => .error (.json .trailingComma)
  | _ => .error (.json .keyMustBeString)

/-- The next key of an object, from behind a member, if the object is not closed. -/
def readNextKey (s : Bytes) : Except ConfigDefect (Option String × Bytes) :=
  match skipBlanks s with
  | [] => .error (.json .endInObject)
  | Byte.closeBrace :: rest => .ok (none, rest)
  | Byte.comma :: rest => readKeyBehindComma rest
  | _ => .error (.json .expectedCommaOrBrace)

/-- The first or the next key of an object. -/
def readKey (first : Bool) (s : Bytes) : Except ConfigDefect (Option String × Bytes) :=
  if first then readFirstKey s else readNextKey s

/-- The value of a setting, from behind its key. -/
def readValue (field : ConfigField) (s : Bytes) :
    Except ConfigDefect (declaration.Value field × Bytes) :=
  match field with
  | .memoize => do readFlag (← readColon s)
  | .defaultMode => do readMode (← readColon s)

/-- Passes over the value of a member that is no setting, from behind its key. -/
def readIgnored (s : Bytes) : Except ConfigDefect Bytes := do
  json (skipValue [] (← readColon s))

theorem length_readOpenedKey {s r : Bytes} {key? : Option String}
    (h : readOpenedKey s = .ok (key?, r)) : r.length < s.length := by
  obtain ⟨⟨key, rest⟩, hk, h⟩ := exists_of_bind_eq_ok h
  have := length_readText (eq_ok_of_json hk)
  simp only [pure, Except.pure, Except.ok.injEq, Prod.mk.injEq] at h
  obtain ⟨-, rfl⟩ := h
  exact this

theorem length_readFirstKey {s r : Bytes} {key? : Option String}
    (h : readFirstKey s = .ok (key?, r)) : r.length < s.length := by
  unfold readFirstKey at h
  split at h
  · simp at h
  · rename_i hs
    have := length_of_skipBlanks_eq hs
    simp only [Except.ok.injEq, Prod.mk.injEq] at h
    obtain ⟨-, rfl⟩ := h
    exact this
  · rename_i hs
    have := length_of_skipBlanks_eq hs
    have := length_readOpenedKey h
    omega
  · simp at h

theorem length_readKeyBehindComma {s r : Bytes} {key? : Option String}
    (h : readKeyBehindComma s = .ok (key?, r)) : r.length < s.length := by
  unfold readKeyBehindComma at h
  split at h
  · simp at h
  · rename_i hs
    have := length_of_skipBlanks_eq hs
    have := length_readOpenedKey h
    omega
  · simp at h
  · simp at h

theorem length_readNextKey {s r : Bytes} {key? : Option String}
    (h : readNextKey s = .ok (key?, r)) : r.length < s.length := by
  unfold readNextKey at h
  split at h
  · simp at h
  · rename_i hs
    have := length_of_skipBlanks_eq hs
    simp only [Except.ok.injEq, Prod.mk.injEq] at h
    obtain ⟨-, rfl⟩ := h
    exact this
  · rename_i hs
    have := length_of_skipBlanks_eq hs
    have := length_readKeyBehindComma h
    omega
  · simp at h

theorem length_readKey {first : Bool} {s r : Bytes} {key? : Option String}
    (h : readKey first s = .ok (key?, r)) : r.length < s.length := by
  cases first
  · exact length_readNextKey h
  · exact length_readFirstKey h

theorem length_readValue {field : ConfigField} {s r : Bytes} {value : declaration.Value field}
    (h : readValue field s = .ok (value, r)) : r.length ≤ s.length := by
  cases field with
  | memoize =>
    obtain ⟨rest, hc, h⟩ := exists_of_bind_eq_ok h
    exact Nat.le_trans (length_readFlag h) (length_readColon hc)
  | defaultMode =>
    obtain ⟨rest, hc, h⟩ := exists_of_bind_eq_ok h
    exact Nat.le_trans (length_readMode h) (length_readColon hc)

theorem length_readIgnored {s r : Bytes} (h : readIgnored s = .ok r) : r.length ≤ s.length := by
  obtain ⟨rest, hc, h⟩ := exists_of_bind_eq_ok h
  have := length_readColon hc
  have := length_skipValue (eq_ok_of_json h)
  omega

/-! ### Members -/

/-- The setting of a name. -/
def fieldNamed? (key : String) : Option ConfigField :=
  if key = "memoize" then some .memoize
  else if key = "default_mode" then some .defaultMode
  else none

/-- Reads a member of an object from behind its key. A setting that was given before is refused
before its value is looked at. -/
def readMember (given : declaration.Given) (key : String) (s : Bytes) :
    Except ConfigDefect (declaration.Given × Bytes) :=
  match fieldNamed? key with
  | some field =>
    if (given field).isSome then .error (.duplicateField field)
    else do
      let (value, rest) ← readValue field s
      return (given.give field value, rest)
  | none => do return (given, ← readIgnored s)

theorem length_readMember {given given' : declaration.Given} {key : String} {s r : Bytes}
    (h : readMember given key s = .ok (given', r)) : r.length ≤ s.length := by
  unfold readMember at h
  split at h
  · split at h
    · simp at h
    · obtain ⟨⟨value, rest⟩, hv, h⟩ := exists_of_bind_eq_ok h
      have := length_readValue hv
      simp only [pure, Except.pure, Except.ok.injEq, Prod.mk.injEq] at h
      obtain ⟨-, rfl⟩ := h
      exact this
  · obtain ⟨rest, hr, h⟩ := exists_of_bind_eq_ok h
    have := length_readIgnored hr
    simp only [pure, Except.pure, Except.ok.injEq, Prod.mk.injEq] at h
    obtain ⟨-, rfl⟩ := h
    exact this

/-- Reads the members of an object up to the closing brace, from behind the opening one or from
behind a member. -/
def readMembers (first : Bool) (given : declaration.Given) (s : Bytes) :
    Except ConfigDefect (declaration.Given × Bytes) :=
  match _hk : readKey first s with
  | .error defect => .error defect
  | .ok (none, rest) => .ok (given, rest)
  | .ok (some key, rest) =>
    match _hm : readMember given key rest with
    | .error defect => .error defect
    | .ok (given, rest) => readMembers false given rest
termination_by s.length
decreasing_by
  have := length_readKey _hk
  have := length_readMember _hm
  omega

/-! ### Settings -/

/-- The end of a list of settings that holds all of them. -/
def readListEnd (s : Bytes) : Except ConfigDefect Bytes :=
  match skipBlanks s with
  | [] => .error (.json .endInList)
  | Byte.closeBracket :: rest => .ok rest
  | Byte.comma :: rest =>
    match skipBlanks rest with
    | Byte.closeBracket :: _ => .error (.json .trailingComma)
    | _ => .error (.json .trailingCharacters)
  | _ => .error (.json .trailingCharacters)

/-- Settings as a list, from behind its opening bracket. -/
def readList (s : Bytes) : Except ConfigDefect (declaration.Given × Bytes) := do
  match skipBlanks s with
  | [] => .error (.json .endInList)
  | Byte.closeBracket :: rest => return (declaration.nothing, rest)
  | first :: rest =>
    let (memoize, rest) ← readFlag (first :: rest)
    let given := declaration.nothing.give .memoize memoize
    match skipBlanks rest with
    | [] => .error (.json .endInList)
    | Byte.closeBracket :: rest => return (given, rest)
    | Byte.comma :: rest =>
      match skipBlanks rest with
      | [] => .error (.json .endInValue)
      | Byte.closeBracket :: _ => .error (.json .trailingComma)
      | first :: rest =>
        let (defaultMode, rest) ← readMode (first :: rest)
        return (given.give .defaultMode defaultMode, ← readListEnd rest)
    | _ => .error (.json .expectedCommaOrBracket)

/-- Settings in either form. -/
def readSettings (s : Bytes) : Except ConfigDefect (declaration.Given × Bytes) :=
  match skipBlanks s with
  | [] => .error (.json .endInValue)
  | Byte.openBracket :: rest => readList rest
  | Byte.openBrace :: rest => readMembers true declaration.nothing rest
  | first :: rest => refuse .settings first rest

/-- Nothing but white space is left. -/
def readEnd (s : Bytes) : Except ConfigDefect Unit :=
  if (skipBlanks s).isEmpty then .ok () else .error (.json .trailingCharacters)

/-- The values of the settings in a text that holds nothing else. -/
def ofBytes (s : Bytes) : Except ConfigDefect declaration.Values := do
  let (given, rest) ← readSettings s
  readEnd rest
  return declaration.complete given

/-- The package that settings are read with. -/
def package : Record.Package ConfigDefect declaration where
  fromText text := ofBytes (bytesOf text)
  fromBytes := ofBytes
  describe := ConfigDefect.message

/-- The settings in a text. -/
def ofString (text : String) : Except ConfigError Config := load package text

/-- The settings in a file, given its path and what it holds, if there is such a file. -/
def ofFile (path : String) (contents? : Option Bytes) : Except ConfigError Config :=
  loadFile package path contents?

end Packrat.Config
