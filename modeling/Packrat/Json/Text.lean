import Packrat.Json.Byte
import Packrat.Json.Defect

/-!
# Strings and words in JSON texts

How the package for settings reads strings and words. All functions here read what stands
behind an opening quote or in place of a word, and return what is left behind it.

* `word`: one of the words `null`, `true` and `false`, letter by letter.
* `readText`: the text of a string, with its escapes undone.
* `skipText`: passes over a string. Its escapes must be well formed, but what they stand for
  does not matter, nor whether the string is valid UTF-8.
-/

namespace Packrat.Json

/-- Reads exactly the given letters. -/
def word : Bytes → Bytes → Except JsonDefect Bytes
  | [], s => .ok s
  | _ :: _, [] => .error .endInValue
  | letter :: letters, b :: s => if b = letter then word letters s else .error .expectedIdent

/-- The byte that a letter stands for behind a backslash. -/
def plainEscape? (b : UInt8) : Option UInt8 :=
  if b = Byte.quote ∨ b = Byte.backslash ∨ b = Byte.of '/' then some b
  else if b = Byte.of 'b' then some 0x08
  else if b = Byte.of 'f' then some 0x0c
  else if b = Byte.of 'n' then some 0x0a
  else if b = Byte.of 'r' then some 0x0d
  else if b = Byte.of 't' then some 0x09
  else none

/-- Four hexadecimal digits. -/
def readHex : Bytes → Except JsonDefect (Nat × Bytes)
  | a :: b :: c :: d :: s =>
    match [a, b, c, d].mapM Byte.hexValue? with
    | some digits => .ok (digits.foldl (16 * · + ·) 0, s)
    | none => .error .invalidEscape
  | _ => .error .endInString

def isLeadingSurrogate (n : Nat) : Bool := 0xd800 ≤ n && n ≤ 0xdbff

def isTrailingSurrogate (n : Nat) : Bool := 0xdc00 ≤ n && n ≤ 0xdfff

/-- The code point of a pair of surrogates. -/
def pairValue (leading trailing : Nat) : Nat :=
  0x10000 + (leading - 0xd800) * 0x400 + (trailing - 0xdc00)

/-- The second escape of a pair of surrogates, with its backslash. -/
def readTrailing : Bytes → Except JsonDefect (Nat × Bytes)
  | [] => .error .endInString
  | b :: s =>
    if b = Byte.backslash then
      match s with
      | [] => .error .endInString
      | u :: s => if u = Byte.letterU then readHex s else .error .unexpectedEndOfHexEscape
    else .error .unexpectedEndOfHexEscape

/-- The code point given by the digits behind `\u`; surrogates must come in pairs. -/
def readCodePoint (s : Bytes) : Except JsonDefect (Nat × Bytes) :=
  match readHex s with
  | .error e => .error e
  | .ok (n, s) =>
    if isTrailingSurrogate n then .error .loneSurrogate
    else if isLeadingSurrogate n then
      match readTrailing s with
      | .error e => .error e
      | .ok (second, s) =>
        if isTrailingSurrogate second then .ok (pairValue n second, s)
        else .error .loneSurrogate
    else .ok (n, s)

/-- The bytes that an escape stands for, from behind its backslash. -/
def readEscape : Bytes → Except JsonDefect (Bytes × Bytes)
  | [] => .error .endInString
  | b :: s =>
    if b = Byte.letterU then
      match readCodePoint s with
      | .error e => .error e
      | .ok (n, s) => .ok (String.utf8EncodeChar (Char.ofNat n), s)
    else
      match plainEscape? b with
      | some byte => .ok ([byte], s)
      | none => .error .invalidEscape

/-- Passes over an escape from behind its backslash. -/
def skipEscape : Bytes → Except JsonDefect Bytes
  | [] => .error .endInString
  | b :: s =>
    if b = Byte.letterU then (readHex s).map Prod.snd
    else if (plainEscape? b).isSome then .ok s
    else .error .invalidEscape

theorem length_readHex {s r : Bytes} {n : Nat} (h : readHex s = .ok (n, r)) :
    r.length < s.length := by
  unfold readHex at h
  split at h
  · split at h
    · simp only [Except.ok.injEq, Prod.mk.injEq] at h
      obtain ⟨-, rfl⟩ := h
      simp only [List.length_cons]; omega
    · simp at h
  · simp at h

theorem length_readTrailing {s r : Bytes} {n : Nat} (h : readTrailing s = .ok (n, r)) :
    r.length < s.length := by
  unfold readTrailing at h
  split at h
  · simp at h
  · split at h
    · split at h
      · simp at h
      · split at h
        · have := length_readHex h
          simp only [List.length_cons]; omega
        · simp at h
    · simp at h

theorem length_readCodePoint {s r : Bytes} {n : Nat} (h : readCodePoint s = .ok (n, r)) :
    r.length < s.length := by
  unfold readCodePoint at h
  split at h
  · simp at h
  · rename_i first s' hs
    have h1 := length_readHex hs
    split at h
    · simp at h
    · split at h
      · split at h
        · simp at h
        · rename_i ht
          have h2 := length_readTrailing ht
          split at h
          · simp only [Except.ok.injEq, Prod.mk.injEq] at h
            obtain ⟨-, rfl⟩ := h
            omega
          · simp at h
      · simp only [Except.ok.injEq, Prod.mk.injEq] at h
        obtain ⟨-, rfl⟩ := h
        exact h1

theorem length_readEscape {s r bytes : Bytes} (h : readEscape s = .ok (bytes, r)) :
    r.length < s.length := by
  unfold readEscape at h
  split at h
  · simp at h
  · split at h
    · split at h
      · simp at h
      · rename_i hc
        have := length_readCodePoint hc
        simp only [Except.ok.injEq, Prod.mk.injEq] at h
        obtain ⟨-, rfl⟩ := h
        simp only [List.length_cons]; omega
    · split at h
      · simp only [Except.ok.injEq, Prod.mk.injEq] at h
        obtain ⟨-, rfl⟩ := h
        simp
      · simp at h

theorem length_skipEscape {s r : Bytes} (h : skipEscape s = .ok r) : r.length < s.length := by
  unfold skipEscape at h
  split at h
  · simp at h
  · split at h
    · rename_i rest _
      cases hx : readHex rest with
      | error e => simp [hx, Except.map] at h
      | ok p =>
        obtain ⟨n, t⟩ := p
        have := length_readHex hx
        simp only [hx, Except.map, Except.ok.injEq] at h
        subst h
        simp only [List.length_cons]; omega
    · split at h
      · simp only [Except.ok.injEq] at h
        subst h
        simp
      · simp at h

/-- The bytes of a string up to its closing quote, with escapes undone. -/
def readTextBytes (s : Bytes) : Except JsonDefect (Bytes × Bytes) :=
  match s with
  | [] => .error .endInString
  | b :: s =>
    if b = Byte.quote then .ok ([], s)
    else if b = Byte.backslash then
      match _h : readEscape s with
      | .error e => .error e
      | .ok (bytes, s) => (readTextBytes s).map fun (more, s) => (bytes ++ more, s)
    else if Byte.isControl b then .error .controlCharacter
    else (readTextBytes s).map fun (more, s) => (b :: more, s)
termination_by s.length
decreasing_by
  · have := length_readEscape _h
    simp only [List.length_cons]; omega
  · simp

/-- The text of a string. -/
def readText (s : Bytes) : Except JsonDefect (String × Bytes) :=
  match readTextBytes s with
  | .error e => .error e
  | .ok (bytes, s) =>
    match String.fromUTF8? bytes.toByteArray with
    | some text => .ok (text, s)
    | none => .error .invalidUnicode

/-- Passes over a string up to its closing quote. -/
def skipText (s : Bytes) : Except JsonDefect Bytes :=
  match s with
  | [] => .error .endInString
  | b :: s =>
    if b = Byte.quote then .ok s
    else if b = Byte.backslash then
      match _h : skipEscape s with
      | .error e => .error e
      | .ok s => skipText s
    else if Byte.isControl b then .error .controlCharacter
    else skipText s
termination_by s.length
decreasing_by
  · have := length_skipEscape _h
    simp only [List.length_cons]; omega
  · simp

theorem length_word {letters s r : Bytes} (h : word letters s = .ok r) :
    r.length ≤ s.length := by
  fun_induction word letters s with
  | case1 s => simp_all
  | case2 => simp at h
  | case3 letter letters s ih =>
    have := ih h
    simp only [List.length_cons]; omega
  | case4 => simp at h

theorem length_readTextBytes {s bytes r : Bytes} (h : readTextBytes s = .ok (bytes, r)) :
    r.length < s.length := by
  fun_induction readTextBytes s generalizing bytes r with
  | case1 => simp at h
  | case2 s => simp_all
  | case3 => simp at h
  | case4 s bytes' s' he _ ih =>
    have := length_readEscape he
    cases hx : readTextBytes s' with
    | error e => simp [hx, Except.map] at h
    | ok p =>
      have := ih hx
      simp only [hx, Except.map, Except.ok.injEq, Prod.mk.injEq] at h
      obtain ⟨-, rfl⟩ := h
      simp only [List.length_cons]; omega
  | case5 => simp at h
  | case6 b s hq hb hc ih =>
    cases hx : readTextBytes s with
    | error e => simp [hx, Except.map] at h
    | ok p =>
      have := ih hx
      simp only [hx, Except.map, Except.ok.injEq, Prod.mk.injEq] at h
      obtain ⟨-, rfl⟩ := h
      simp only [List.length_cons]; omega

theorem length_readText {s r : Bytes} {text : String} (h : readText s = .ok (text, r)) :
    r.length < s.length := by
  unfold readText at h
  split at h
  · simp at h
  · rename_i hb
    have := length_readTextBytes hb
    split at h
    · simp only [Except.ok.injEq, Prod.mk.injEq] at h
      obtain ⟨-, rfl⟩ := h
      exact this
    · simp at h

theorem length_skipText {s r : Bytes} (h : skipText s = .ok r) : r.length < s.length := by
  fun_induction skipText s with
  | case1 => simp at h
  | case2 s => simp_all
  | case3 => simp at h
  | case4 s s' he _ ih =>
    have := length_skipEscape he
    have := ih h
    simp only [List.length_cons]; omega
  | case5 => simp at h
  | case6 b s hq hb hc ih =>
    have := ih h
    simp only [List.length_cons]; omega

end Packrat.Json
