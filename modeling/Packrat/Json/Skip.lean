import Packrat.Json.Number
import Packrat.Json.Text

/-!
# Passing over JSON values

A value that nobody asked for is passed over by the package for settings without being built.
The lists and objects that are open at a place are kept in a list, the innermost first, so nesting
has no limit.

* `skipValue`: passes over a value and all that is open around it.
* `skipMember`, `skipAfterValue`: the same from the key of a member and from behind a value.
-/

namespace Packrat.Json

/-- A list or an object that was opened and not yet closed. -/
inductive Enclosing where
  | list
  | object
deriving DecidableEq

theorem length_of_skipBlanks_eq {s rest : Bytes} {b : UInt8} (h : skipBlanks s = b :: rest) :
    rest.length < s.length := by
  have := length_skipBlanks_le s
  rw [h] at this
  simp only [List.length_cons] at this; omega

/-- Passes over a value that is no list and no object, from behind its first byte. -/
def skipScalar (first : UInt8) (s : Bytes) : Except JsonDefect Bytes :=
  match first with
  | Byte.letterN => word [Byte.of 'u', Byte.of 'l', Byte.of 'l'] s
  | Byte.letterT => word [Byte.of 'r', Byte.of 'u', Byte.of 'e'] s
  | Byte.letterF => word [Byte.of 'a', Byte.of 'l', Byte.of 's', Byte.of 'e'] s
  | Byte.minus => skipNumber s
  | Byte.quote => skipText s
  | b => if Byte.isDigit b then skipNumber (b :: s) else .error .expectedValue

theorem length_skipScalar {first : UInt8} {s r : Bytes} (h : skipScalar first s = .ok r) :
    r.length ≤ s.length := by
  unfold skipScalar at h
  split at h
  · exact length_word h
  · exact length_word h
  · exact length_word h
  · exact Nat.le_of_lt (length_skipNumber h)
  · exact Nat.le_of_lt (length_skipText h)
  · split at h
    · have := length_skipNumber h
      simp only [List.length_cons] at this; omega
    · simp at h

mutual

/-- Passes over a value and all that is open around it. -/
def skipValue (outer : List Enclosing) (s : Bytes) : Except JsonDefect Bytes :=
  match _h : skipBlanks s with
  | [] => .error .endInValue
  | Byte.openBracket :: rest =>
    match _h' : skipBlanks rest with
    | [] => .error .endInList
    | Byte.closeBracket :: rest => skipAfterValue outer rest
    | _ => skipValue (.list :: outer) rest
  | Byte.openBrace :: rest =>
    match _h' : skipBlanks rest with
    | [] => .error .endInObject
    | Byte.closeBrace :: rest => skipAfterValue outer rest
    | _ => skipMember outer rest
  | first :: rest =>
    match _h' : skipScalar first rest with
    | .error e => .error e
    | .ok rest => skipAfterValue outer rest
termination_by s.length
decreasing_by
  all_goals have := length_of_skipBlanks_eq _h
  · have := length_of_skipBlanks_eq _h'
    omega
  · omega
  · have := length_of_skipBlanks_eq _h'
    omega
  · omega
  · have := length_skipScalar _h'
    omega

/-- Passes over a member of an object, from its key on, and all that is open around it; `outer`
is what is open around the object. -/
def skipMember (outer : List Enclosing) (s : Bytes) : Except JsonDefect Bytes :=
  match _h : skipBlanks s with
  | [] => .error .endInObject
  | Byte.quote :: key =>
    match _hk : skipText key with
    | .error e => .error e
    | .ok rest =>
      match _h' : skipBlanks rest with
      | [] => .error .endInObject
      | Byte.colon :: rest => skipValue (.object :: outer) rest
      | _ => .error .expectedColon
  | _ => .error .keyMustBeString
termination_by s.length
decreasing_by
  have := length_of_skipBlanks_eq _h
  have := length_of_skipBlanks_eq _h'
  have := length_skipText _hk
  omega

/-- Passes over all that is open around a value, from behind the value. -/
def skipAfterValue (outer : List Enclosing) (s : Bytes) : Except JsonDefect Bytes :=
  match outer with
  | [] => .ok s
  | .list :: around =>
    match _h : skipBlanks s with
    | [] => .error .endInList
    | Byte.comma :: rest => skipValue (.list :: around) rest
    | Byte.closeBracket :: rest => skipAfterValue around rest
    | _ => .error .expectedCommaOrBracket
  | .object :: around =>
    match _h : skipBlanks s with
    | [] => .error .endInObject
    | Byte.comma :: rest => skipMember around rest
    | Byte.closeBrace :: rest => skipAfterValue around rest
    | _ => .error .expectedCommaOrBrace
termination_by s.length
decreasing_by all_goals
  have := length_of_skipBlanks_eq _h
  omega

end

/-- The first two functions leave less than they were given, and the third no more. -/
theorem length_skip (n : Nat) :
    (∀ outer s r, s.length < n → skipValue outer s = .ok r → r.length < s.length) ∧
    (∀ outer s r, s.length < n → skipMember outer s = .ok r → r.length < s.length) ∧
    (∀ outer s r, s.length < n → skipAfterValue outer s = .ok r → r.length ≤ s.length) := by
  induction n with
  | zero => simp
  | succ n ih =>
    obtain ⟨ihValue, ihMember, ihAfter⟩ := ih
    refine ⟨fun outer s r hn h => ?_, fun outer s r hn h => ?_, fun outer s r hn h => ?_⟩
    · unfold skipValue at h
      split at h
      · simp at h
      · rename_i rest hs
        have := length_of_skipBlanks_eq hs
        split at h
        · simp at h
        · rename_i rest' hs'
          have := length_of_skipBlanks_eq hs'
          have := ihAfter _ _ _ (by omega) h
          omega
        · have := ihValue _ _ _ (by omega) h
          omega
      · rename_i rest hs
        have := length_of_skipBlanks_eq hs
        split at h
        · simp at h
        · rename_i rest' hs'
          have := length_of_skipBlanks_eq hs'
          have := ihAfter _ _ _ (by omega) h
          omega
        · have := ihMember _ _ _ (by omega) h
          omega
      · rename_i hs
        have := length_of_skipBlanks_eq hs
        split at h
        · simp at h
        · rename_i hs'
          have := length_skipScalar hs'
          have := ihAfter _ _ _ (by omega) h
          omega
    · unfold skipMember at h
      split at h
      · simp at h
      · rename_i hs
        have := length_of_skipBlanks_eq hs
        split at h
        · simp at h
        · rename_i hk
          have := length_skipText hk
          split at h
          · simp at h
          · rename_i hc
            have := length_of_skipBlanks_eq hc
            have := ihValue _ _ _ (by omega) h
            omega
          · simp at h
      · simp at h
    · unfold skipAfterValue at h
      split at h
      · simp_all
      · split at h
        · simp at h
        · rename_i hs
          have := length_of_skipBlanks_eq hs
          have := ihValue _ _ _ (by omega) h
          omega
        · rename_i hs
          have := length_of_skipBlanks_eq hs
          have := ihAfter _ _ _ (by omega) h
          omega
        · simp at h
      · split at h
        · simp at h
        · rename_i hs
          have := length_of_skipBlanks_eq hs
          have := ihMember _ _ _ (by omega) h
          omega
        · rename_i hs
          have := length_of_skipBlanks_eq hs
          have := ihAfter _ _ _ (by omega) h
          omega
        · simp at h

theorem length_skipValue {outer : List Enclosing} {s r : Bytes}
    (h : skipValue outer s = .ok r) : r.length < s.length :=
  (length_skip (s.length + 1)).1 outer s r (Nat.lt_succ_self _) h

end Packrat.Json
