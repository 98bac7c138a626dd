import Packrat.Json.Skip
import Packrat.Proofs.JsonGrammar
import Mathlib.Tactic.Common

/-!
# Strings of JSON, read from bytes

What the grammar says of characters is carried over to bytes here, for the package that programs
are run with. An ASCII character is one byte, and all bytes of another character are above ASCII,
so no byte within a character is taken for a quote, a backslash or white space.

* `encode`: characters as bytes.
* `skipBlanks_encode`: white space is skipped.
* `readText_encode`: **a string is read as the text that it spells**, whatever is behind it.
* `skipText_encode`: a string is passed over up to its closing quote.
-/

namespace Packrat.Json

/-- Characters as their bytes in UTF-8. -/
def encode (chars : List Char) : Bytes := chars.flatMap String.utf8EncodeChar

@[simp] theorem encode_nil : encode [] = [] := rfl

theorem encode_cons (c : Char) (chars : List Char) :
    encode (c :: chars) = String.utf8EncodeChar c ++ encode chars :=
  List.flatMap_cons

@[simp] theorem encode_append (chars more : List Char) :
    encode (chars ++ more) = encode chars ++ encode more :=
  List.flatMap_append

theorem bytesOf_eq (text : String) : bytesOf text = encode text.toList := by
  rw [bytesOf, String.toUTF8_eq_toByteArray, ← String.utf8Encode_toList, List.utf8Encode,
    List.data_toByteArray]
  rfl

/-! ### Bytes of a character -/

/-- What holds of each of the first 128 characters holds of every ASCII character. -/
theorem ascii_forall {P : Char → Prop} (h : ∀ n < 128, P (Char.ofNat n)) {c : Char}
    (hc : c.toNat < 128) : P c :=
  Char.ofNat_toNat c ▸ h c.toNat hc

theorem utf8EncodeChar_ascii {c : Char} (hc : c.toNat < 128) :
    String.utf8EncodeChar c = [Byte.of c] :=
  ascii_forall (P := fun c => String.utf8EncodeChar c = [Byte.of c]) (by decide) hc

/-- A text within two ASCII characters. -/
theorem encode_within {c d : Char} (hc : c.toNat < 128) (hd : d.toNat < 128) (w : List Char)
    (s : Bytes) : encode (c :: (w ++ [d])) ++ s = Byte.of c :: (encode w ++ Byte.of d :: s) := by
  simp [encode_cons, utf8EncodeChar_ascii hc, utf8EncodeChar_ascii hd]

theorem le_of_mem_utf8EncodeChar {c : Char} (hc : 128 ≤ c.toNat) {b : UInt8}
    (hb : b ∈ String.utf8EncodeChar c) : 0x80 ≤ b := by
  have hv : ¬ c.val.toNat ≤ 127 := Nat.not_le.2 hc
  rw [UInt8.le_iff_toNat_le]
  simp only [String.utf8EncodeChar, if_neg hv] at hb
  split at hb
  · simp only [List.mem_cons, List.not_mem_nil, or_false] at hb
    rcases hb with rfl | rfl <;> simp <;> omega
  · split at hb
    · simp only [List.mem_cons, List.not_mem_nil, or_false] at hb
      rcases hb with rfl | rfl | rfl <;> simp <;> omega
    · simp only [List.mem_cons, List.not_mem_nil, or_false] at hb
      rcases hb with rfl | rfl | rfl | rfl <;> simp <;> omega

theorem skipBlanks_encode {ws : List Char} (h : Blank ws) (s : Bytes) :
    skipBlanks (encode ws ++ s) = skipBlanks s := by
  induction ws with
  | nil => rfl
  | cons c ws ih =>
    have hc : String.utf8EncodeChar c = [Byte.of c] ∧ Byte.isBlank (Byte.of c) = true := by
      rcases h c List.mem_cons_self with rfl | rfl | rfl | rfl <;> decide
    rw [encode_cons, hc.1, List.cons_append, List.nil_append, List.cons_append, skipBlanks,
      List.dropWhile_cons_of_pos hc.2]
    exact ih fun c hc => h c (List.mem_cons_of_mem _ hc)

/-! ### Escapes -/

variable {s r bytes : Bytes} {c letter : Char} {n : Nat}

theorem hexValue?_of_hexDigit? (h : hexDigit? c = some n) :
    String.utf8EncodeChar c = [Byte.of c] ∧ Byte.hexValue? (Byte.of c) = some n := by
  have hc : c.toNat < 128 := by
    have hle {d : Char} (hd : c ≤ d) : c.toNat ≤ d.toNat := hd
    unfold hexDigit? at h
    split at h
    · next hd => exact Nat.lt_of_le_of_lt (hle hd.2) (by decide)
    · split at h
      · next hd => exact Nat.lt_of_le_of_lt (hle hd.2) (by decide)
      · split at h
        · next hd => exact Nat.lt_of_le_of_lt (hle hd.2) (by decide)
        · cases h
  refine ⟨utf8EncodeChar_ascii hc, ?_⟩
  rw [← h]
  exact ascii_forall (P := fun c => Byte.hexValue? (Byte.of c) = hexDigit? c) (by decide) hc

/-- Four digits are read as the number that they stand for. -/
theorem readHex_encode {digits : List Char} (h : hexNumber? digits = some n) (s : Bytes) :
    readHex (encode digits ++ s) = .ok (n, s) := by
  match digits with
  | [a, b, c, d] =>
    simp only [hexNumber?, Option.bind_eq_bind, Option.bind_eq_some_iff, Option.pure_def,
      Option.some.injEq] at h
    obtain ⟨va, ha, vb, hb, vc, hc, vd, hd, rfl⟩ := h
    obtain ⟨ea, ha⟩ := hexValue?_of_hexDigit? ha
    obtain ⟨eb, hb⟩ := hexValue?_of_hexDigit? hb
    obtain ⟨ec, hc⟩ := hexValue?_of_hexDigit? hc
    obtain ⟨ed, hd⟩ := hexValue?_of_hexDigit? hd
    simp [encode_cons, ea, eb, ec, ed, readHex, ha, hb, hc, hd]
    omega

/-- The letters behind a backslash are as they should be: each is one byte, which is no `u`, and
stands for the one byte of its character. -/
theorem plainEscape?_of_mem (h : (letter, c) ∈ shortEscapes) :
    String.utf8EncodeChar letter = [Byte.of letter] ∧ Byte.of letter ≠ Byte.letterU ∧
      (plainEscape? (Byte.of letter)).map ([·]) = some (String.utf8EncodeChar c) := by
  have hall : ∀ p ∈ shortEscapes, String.utf8EncodeChar p.1 = [Byte.of p.1] ∧
      Byte.of p.1 ≠ Byte.letterU ∧
      (plainEscape? (Byte.of p.1)).map ([·]) = some (String.utf8EncodeChar p.2) := by
    decide
  exact hall (letter, c) h

theorem readEscape_short (h : (letter, c) ∈ shortEscapes) (s : Bytes) :
    readEscape (String.utf8EncodeChar letter ++ s) = .ok (String.utf8EncodeChar c, s) := by
  obtain ⟨hl, hu, hc⟩ := plainEscape?_of_mem h
  obtain ⟨byte, hbyte, hc⟩ := Option.map_eq_some_iff.1 hc
  rw [hl, ← hc, List.singleton_append, readEscape, if_neg hu, hbyte]

theorem skipEscape_short (h : (letter, c) ∈ shortEscapes) (s : Bytes) :
    skipEscape (String.utf8EncodeChar letter ++ s) = .ok s := by
  obtain ⟨hl, hu, hc⟩ := plainEscape?_of_mem h
  obtain ⟨byte, hbyte, hc⟩ := Option.map_eq_some_iff.1 hc
  simp [hl, skipEscape, hu, hbyte]

theorem readCodePoint_hex {digits : List Char} (hn : hexNumber? digits = some n)
    (hs : ¬ (0xd800 ≤ n ∧ n ≤ 0xdfff)) (s : Bytes) :
    readCodePoint (encode digits ++ s) = .ok (n, s) := by
  have hl : isLeadingSurrogate n = false := by simp [isLeadingSurrogate]; omega
  have ht : isTrailingSurrogate n = false := by simp [isTrailingSurrogate]; omega
  simp [readCodePoint, readHex_encode hn, hl, ht]

theorem readCodePoint_pair {digits digits' : List Char} {leading trailing : Nat}
    (hl : hexNumber? digits = some leading) (hls : 0xd800 ≤ leading ∧ leading ≤ 0xdbff)
    (ht : hexNumber? digits' = some trailing) (hts : 0xdc00 ≤ trailing ∧ trailing ≤ 0xdfff)
    (s : Bytes) :
    readCodePoint (encode digits ++ Byte.of '\\' :: Byte.of 'u' :: (encode digits' ++ s)) =
      .ok (pairValue leading trailing, s) := by
  have h1 : isTrailingSurrogate leading = false := by simp [isTrailingSurrogate]; omega
  have h2 : isLeadingSurrogate leading = true := by simp [isLeadingSurrogate]; omega
  have h3 : isTrailingSurrogate trailing = true := by simp [isTrailingSurrogate]; omega
  have h4 : readTrailing (Byte.of '\\' :: Byte.of 'u' :: (encode digits' ++ s)) =
      .ok (trailing, s) :=
    readHex_encode ht s
  simp only [readCodePoint, readHex_encode hl, h1, h2, h3, h4, Bool.false_eq_true, if_false,
    if_true]

theorem readEscape_hex (h : readCodePoint s = .ok (n, r)) :
    readEscape (Byte.of 'u' :: s) = .ok (String.utf8EncodeChar (Char.ofNat n), r) := by
  rw [readEscape, if_pos (by decide), h]

theorem skipEscape_hex {digits : List Char} (hn : hexNumber? digits = some n) (s : Bytes) :
    skipEscape (Byte.of 'u' :: (encode digits ++ s)) = .ok s := by
  rw [skipEscape, if_pos (by decide), readHex_encode hn]
  rfl

/-! ### Strings -/

/-- A byte of a character that stands in a string as it is. -/
theorem plain_of_mem {b : UInt8} (hc : IsPlain c) (hb : b ∈ String.utf8EncodeChar c) :
    b ≠ Byte.quote ∧ b ≠ Byte.backslash ∧ Byte.isControl b = false := by
  by_cases h : c.toNat < 128
  · rw [utf8EncodeChar_ascii h, List.mem_singleton] at hb
    subst hb
    exact ascii_forall (P := fun c => IsPlain c → Byte.of c ≠ Byte.quote ∧
      Byte.of c ≠ Byte.backslash ∧ Byte.isControl (Byte.of c) = false) (by decide) h hc
  · have hle : 0x80 ≤ b := le_of_mem_utf8EncodeChar (Nat.le_of_not_lt h) hb
    rw [UInt8.le_iff_toNat_le] at hle
    refine ⟨?_, ?_, ?_⟩
    · rintro rfl; revert hle; decide
    · rintro rfl; revert hle; decide
    · simp only [Byte.isControl, decide_eq_false_iff_not, UInt8.lt_iff_toNat_lt, Nat.not_lt]
      exact Nat.le_trans (by decide) hle

theorem readTextBytes_plain {more : Bytes}
    (hb : ∀ b ∈ bytes, b ≠ Byte.quote ∧ b ≠ Byte.backslash ∧ Byte.isControl b = false)
    (h : readTextBytes s = .ok (more, r)) :
    readTextBytes (bytes ++ s) = .ok (bytes ++ more, r) := by
  induction bytes with
  | nil => exact h
  | cons b bytes ih =>
    obtain ⟨hq, he, hc⟩ := hb b List.mem_cons_self
    have hrest := ih fun b hb' => hb b (List.mem_cons_of_mem _ hb')
    rw [List.cons_append, readTextBytes, if_neg hq, if_neg he, hc, hrest]
    rfl

theorem readTextBytes_escape {more : Bytes} (he : readEscape s = .ok (bytes, r))
    {rest : Bytes} (h : readTextBytes r = .ok (more, rest)) :
    readTextBytes (Byte.of '\\' :: s) = .ok (bytes ++ more, rest) := by
  rw [readTextBytes, if_neg (by decide), if_pos (by decide)]
  split
  · next hx => rw [he] at hx; cases hx
  · next hx =>
    rw [he] at hx
    cases hx
    rw [h]
    rfl

/-- **A string is read as what it spells**, byte by byte. -/
theorem readTextBytes_encode {w text : List Char} (h : Spells w text) (s : Bytes) :
    readTextBytes (encode w ++ Byte.of '"' :: s) = .ok (encode text, s) := by
  induction h with
  | nil =>
    rw [encode_nil, List.nil_append, readTextBytes]
    exact if_pos rfl
  | plain hc _ ih =>
    simp only [encode_cons, List.append_assoc]
    exact readTextBytes_plain (fun b hb => plain_of_mem hc hb) ih
  | short hc _ ih =>
    simp only [encode_cons, List.append_assoc]
    exact readTextBytes_escape (readEscape_short hc _) ih
  | hex hn hs _ ih =>
    simp only [encode_cons, encode_append, List.append_assoc]
    exact readTextBytes_escape (readEscape_hex (readCodePoint_hex hn hs _)) ih
  | pair hl hls ht hts _ ih =>
    simp only [encode_cons, encode_append, List.append_assoc]
    exact readTextBytes_escape (readEscape_hex (readCodePoint_pair hl hls ht hts _)) ih

/-- **A string is read as the text that it spells.** -/
theorem readText_encode {w : List Char} {text : String} (h : Spells w text.toList) (s : Bytes) :
    readText (encode w ++ Byte.of '"' :: s) = .ok (text, s) := by
  have hbytes : (encode text.toList).toByteArray = text.toByteArray :=
    String.utf8Encode_toList
  have htext : String.fromUTF8? (encode text.toList).toByteArray = some text := by
    rw [hbytes, String.fromUTF8?, dif_pos text.isValidUTF8]
    rfl
  rw [readText, readTextBytes_encode h]
  simp only [htext]

theorem skipText_plain
    (hb : ∀ b ∈ bytes, b ≠ Byte.quote ∧ b ≠ Byte.backslash ∧ Byte.isControl b = false)
    (s : Bytes) : skipText (bytes ++ s) = skipText s := by
  induction bytes with
  | nil => rfl
  | cons b bytes ih =>
    obtain ⟨hq, he, hc⟩ := hb b List.mem_cons_self
    have hrest := ih fun b hb' => hb b (List.mem_cons_of_mem _ hb')
    rw [List.cons_append, skipText, if_neg hq, if_neg he, hc, hrest]
    rfl

theorem skipText_escape (he : skipEscape s = .ok r) :
    skipText (Byte.of '\\' :: s) = skipText r := by
  rw [skipText, if_neg (by decide), if_pos (by decide)]
  split
  · next hx => rw [he] at hx; cases hx
  · next hx =>
    rw [he] at hx
    cases hx
    rfl

/-- A string is passed over up to its closing quote. -/
theorem skipText_encode {w : List Char} (h : IsText w) (s : Bytes) :
    skipText (encode w ++ Byte.of '"' :: s) = .ok s := by
  induction h with
  | nil =>
    rw [encode_nil, List.nil_append, skipText]
    exact if_pos rfl
  | plain hc _ ih =>
    simp only [encode_cons, List.append_assoc]
    exact (skipText_plain (fun b hb => plain_of_mem hc hb) _).trans ih
  | short hc _ ih =>
    simp only [encode_cons, List.append_assoc]
    exact (skipText_escape (skipEscape_short hc _)).trans ih
  | hex hn _ ih =>
    simp only [encode_cons, encode_append, List.append_assoc]
    exact (skipText_escape (skipEscape_hex hn _)).trans ih

end Packrat.Json
