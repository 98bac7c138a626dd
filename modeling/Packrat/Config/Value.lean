import Packrat.Config.Defect
import Packrat.Json.Skip

/-!
# Reading the values of settings

How the package for settings reads the values of its two fields. A flag is `true` or `false`. A
mode is its name in quotes, or an object with its name as the only key and `null` as the value.
For a value of another kind it is told what was found.

* `Config.kindOf`: the kind of a value that was found in place of another.
* `Config.readFlag`, `Config.readMode`: the two values.
-/

namespace Packrat.Config

open Json

/-- A defect of the text itself. -/
def json {α : Type} : Except JsonDefect α → Except ConfigDefect α
  | .ok a => .ok a
  | .error defect => .error (.json defect)

/-- A word, behind its first letter, for what it stands for. -/
def spelled (letters : List Char) (kind : JsonKind) (s : Bytes) : Except JsonDefect JsonKind :=
  (word (letters.map Byte.of) s).map fun _ => kind

/-- What kind of value a text begins with. It is read as far as needed to tell. -/
def kindOf (first : UInt8) (s : Bytes) : Except JsonDefect JsonKind :=
  match first with
  | Byte.letterN => spelled ['u', 'l', 'l'] .null s
  | Byte.letterT => spelled ['r', 'u', 'e'] (.bool true) s
  | Byte.letterF => spelled ['a', 'l', 's', 'e'] (.bool false) s
  | Byte.minus => (readNumber true s).map .number
  | Byte.quote => (readText s).map fun (text, _) => .string text
  | Byte.openBracket => .ok .list
  | Byte.openBrace => .ok .object
  | b => if Byte.isDigit b then (readNumber false (b :: s)).map .number else .error .expectedValue

/-- Refuses a value that stands in place of another. -/
def refuse {α : Type} (expected : ConfigPart) (first : UInt8) (s : Bytes) :
    Except ConfigDefect α :=
  match kindOf first s with
  | .ok kind => .error (.invalidType kind expected)
  | .error defect => .error (.json defect)

/-- The value `true` or `false`. -/
def readFlag (s : Bytes) : Except ConfigDefect (Bool × Bytes) :=
  match skipBlanks s with
  | [] => .error (.json .endInValue)
  | Byte.letterT :: rest => do return (true, ← json (word (['r', 'u', 'e'].map Byte.of) rest))
  | Byte.letterF :: rest =>
    do return (false, ← json (word (['a', 'l', 's', 'e'].map Byte.of) rest))
  | first :: rest => refuse .flag first rest

/-- The colon behind a key. -/
def readColon (s : Bytes) : Except ConfigDefect Bytes :=
  match skipBlanks s with
  | [] => .error (.json .endInObject)
  | Byte.colon :: rest => .ok rest
  | _ => .error (.json .expectedColon)

/-- The value `null`. -/
def readNull (s : Bytes) : Except ConfigDefect Bytes :=
  match skipBlanks s with
  | [] => .error (.json .endInValue)
  | Byte.letterN :: rest => json (word (['u', 'l', 'l'].map Byte.of) rest)
  | first :: rest => refuse .unit first rest

/-- The mode of a name. -/
def modeNamed (name : String) : Except ConfigDefect Mode :=
  match Mode.ofName? name with
  | some mode => .ok mode
  | none => .error (.unknownMode name)

/-- The key of an object that names a mode, from behind its opening brace. -/
def readModeKey (s : Bytes) : Except ConfigDefect (Mode × Bytes) :=
  match skipBlanks s with
  | [] => .error (.json .endInObject)
  | Byte.quote :: rest => do
    let (name, rest) ← json (readText rest)
    return (← modeNamed name, rest)
  | Byte.closeBrace :: _ => .error (.json .expectedValue)
  | _ => .error (.json .keyMustBeString)

/-- The closing brace of an object that names a mode. -/
def readModeEnd (s : Bytes) : Except ConfigDefect Bytes :=
  match skipBlanks s with
  | [] => .error (.json .endInObject)
  | Byte.closeBrace :: rest => .ok rest
  | _ => .error (.json .expectedValue)

/-- A mode: its name, or an object with its name as the only key and `null` as the value. -/
def readMode (s : Bytes) : Except ConfigDefect (Mode × Bytes) :=
  match skipBlanks s with
  | [] => .error (.json .endInValue)
  | Byte.openBrace :: rest => do
    let (mode, rest) ← readModeKey rest
    let rest ← readColon rest
    let rest ← readNull rest
    return (mode, ← readModeEnd rest)
  | Byte.quote :: rest => do
    let (name, rest) ← json (readText rest)
    return (← modeNamed name, rest)
  | _ => .error (.json .expectedValue)

theorem exists_of_bind_eq_ok {ε α β : Type} {x : Except ε α} {f : α → Except ε β} {b : β}
    (h : x >>= f = .ok b) : ∃ a, x = .ok a ∧ f a = .ok b := by
  cases x with
  | error e => simp [bind, Except.bind] at h
  | ok a => exact ⟨a, rfl, h⟩

theorem eq_ok_of_json {α : Type} {x : Except JsonDefect α} {a : α} (h : json x = .ok a) :
    x = .ok a := by
  cases x <;> simp_all [json]

theorem refuse_ne_ok {α : Type} {expected : ConfigPart} {first : UInt8} {s : Bytes} {a : α} :
    refuse expected first s ≠ .ok a := by
  unfold refuse; split <;> simp

theorem length_readFlag {s r : Bytes} {b : Bool} (h : readFlag s = .ok (b, r)) :
    r.length ≤ s.length := by
  unfold readFlag at h
  split at h
  · simp at h
  · rename_i hs
    have := length_of_skipBlanks_eq hs
    obtain ⟨rest, hw, he⟩ := exists_of_bind_eq_ok h
    have := length_word (eq_ok_of_json hw)
    simp only [pure, Except.pure, Except.ok.injEq, Prod.mk.injEq] at he
    obtain ⟨-, rfl⟩ := he
    omega
  · rename_i hs
    have := length_of_skipBlanks_eq hs
    obtain ⟨rest, hw, he⟩ := exists_of_bind_eq_ok h
    have := length_word (eq_ok_of_json hw)
    simp only [pure, Except.pure, Except.ok.injEq, Prod.mk.injEq] at he
    obtain ⟨-, rfl⟩ := he
    omega
  · exact absurd h refuse_ne_ok

theorem length_readColon {s r : Bytes} (h : readColon s = .ok r) : r.length ≤ s.length := by
  unfold readColon at h
  split at h
  · simp at h
  · rename_i hs
    have := length_of_skipBlanks_eq hs
    simp only [Except.ok.injEq] at h
    subst h; omega
  · simp at h

theorem length_readNull {s r : Bytes} (h : readNull s = .ok r) : r.length ≤ s.length := by
  unfold readNull at h
  split at h
  · simp at h
  · rename_i hs
    have := length_of_skipBlanks_eq hs
    have := length_word (eq_ok_of_json h)
    omega
  · exact absurd h refuse_ne_ok

/-- A name in quotes that is a mode's. -/
theorem length_of_modeNamed {s r : Bytes} {mode : Mode}
    (h : (do
      let (name, rest) ← json (readText s)
      return (← modeNamed name, rest) : Except ConfigDefect (Mode × Bytes)) = .ok (mode, r)) :
    r.length ≤ s.length := by
  obtain ⟨⟨name, rest⟩, hn, h⟩ := exists_of_bind_eq_ok h
  obtain ⟨named, -, h⟩ := exists_of_bind_eq_ok h
  have := length_readText (eq_ok_of_json hn)
  simp only [pure, Except.pure, Except.ok.injEq, Prod.mk.injEq] at h
  obtain ⟨-, rfl⟩ := h
  omega

theorem length_readModeKey {s r : Bytes} {mode : Mode} (h : readModeKey s = .ok (mode, r)) :
    r.length ≤ s.length := by
  unfold readModeKey at h
  split at h
  · simp at h
  · rename_i hs
    have := length_of_skipBlanks_eq hs
    have := length_of_modeNamed h
    omega
  · simp at h
  · simp at h

theorem length_readModeEnd {s r : Bytes} (h : readModeEnd s = .ok r) : r.length ≤ s.length := by
  unfold readModeEnd at h
  split at h
  · simp at h
  · rename_i hs
    have := length_of_skipBlanks_eq hs
    simp only [Except.ok.injEq] at h
    subst h; omega
  · simp at h

theorem length_readMode {s r : Bytes} {mode : Mode} (h : readMode s = .ok (mode, r)) :
    r.length ≤ s.length := by
  unfold readMode at h
  split at h
  · simp at h
  · rename_i hs
    have := length_of_skipBlanks_eq hs
    obtain ⟨⟨named, r1⟩, h1, h⟩ := exists_of_bind_eq_ok h
    obtain ⟨r2, h2, h⟩ := exists_of_bind_eq_ok h
    obtain ⟨r3, h3, h⟩ := exists_of_bind_eq_ok h
    obtain ⟨r4, h4, h⟩ := exists_of_bind_eq_ok h
    have := length_readModeKey h1
    have := length_readColon h2
    have := length_readNull h3
    have := length_readModeEnd h4
    simp only [pure, Except.pure, Except.ok.injEq, Prod.mk.injEq] at h
    obtain ⟨-, rfl⟩ := h
    omega
  · rename_i hs
    have := length_of_skipBlanks_eq hs
    have := length_of_modeNamed h
    omega
  · simp at h

end Packrat.Config
