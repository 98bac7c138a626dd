import Packrat.Proofs.JsonTexts

/-!
# Passing over values of JSON

The package that programs are run with passes over a value from its first byte to its last,
whatever stands in it, and never further. Only a number does not say by itself where it stops, so
what is behind one must not carry it on.

* `Ends`: a text that carries no number on; `skipNumber_encode` for the numbers themselves.
* `Derives.exists_skipBlanks_eq`: no phrase begins as if it closed what is open around it.
* `Skipped`: what it is to pass over a phrase, between what is open around it and what is behind.
* `Derives.skipped`: **every phrase of the grammar is passed over**, by induction on how it is
  derived.
-/

namespace Packrat.Json

variable {s s' r rest : Bytes} {b : UInt8} {w : List Char} {outer : List Enclosing}

/-! ### Numbers -/

/-- A text that does not carry on a number in front of it. -/
def Ends (s : Bytes) : Prop :=
  ∀ b ∈ s.head?, Byte.isDigit b = false ∧ b ≠ Byte.dot ∧ Byte.isExponentMark b = false

theorem digit_encode {c : Char} (hc : '0' ≤ c ∧ c ≤ '9') :
    String.utf8EncodeChar c = [Byte.of c] ∧ Byte.isDigit (Byte.of c) = true := by
  have hlt : c.toNat < 128 := Nat.lt_of_le_of_lt (m := '9'.toNat) hc.2 (by decide)
  exact ascii_forall (P := fun c => '0' ≤ c ∧ c ≤ '9' → String.utf8EncodeChar c = [Byte.of c] ∧
    Byte.isDigit (Byte.of c) = true) (by decide) hlt hc

theorem skipDigits_encode {digits : List Char} (hd : ∀ c ∈ digits, '0' ≤ c ∧ c ≤ '9')
    (hs : ∀ b ∈ s.head?, Byte.isDigit b = false) : skipDigits (encode digits ++ s) = s := by
  induction digits with
  | nil =>
    cases s with
    | nil => rfl
    | cons b s => exact List.dropWhile_cons_of_neg (by simp [hs b rfl])
  | cons c digits ih =>
    obtain ⟨hc, hdigit⟩ := digit_encode (hd c List.mem_cons_self)
    rw [encode_cons, hc, List.append_assoc, List.singleton_append, skipDigits,
      List.dropWhile_cons_of_pos hdigit]
    exact ih fun c hc => hd c (List.mem_cons_of_mem _ hc)

/-- Digits are a first byte that is one, and what skips all others. -/
theorem IsDigits.exists_encode_eq (h : IsDigits w) :
    ∃ b digits, encode w = b :: digits ∧ Byte.isDigit b = true ∧
      (w.head? ≠ some '0' → b ≠ Byte.zero) ∧
      ∀ s : Bytes, (∀ b ∈ s.head?, Byte.isDigit b = false) → skipDigits (digits ++ s) = s := by
  obtain ⟨hne, hd⟩ := h
  cases w with
  | nil => exact absurd rfl hne
  | cons c digits =>
    obtain ⟨hc, hdigit⟩ := digit_encode (hd c List.mem_cons_self)
    refine ⟨Byte.of c, encode digits, by rw [encode_cons, hc, List.singleton_append], hdigit, ?_,
      fun s hs => skipDigits_encode (fun d hd' => hd d (List.mem_cons_of_mem _ hd')) hs⟩
    intro hzero
    have hlt : c.toNat < 128 :=
      Nat.lt_of_le_of_lt (m := '9'.toNat) (hd c List.mem_cons_self).2 (by decide)
    exact ascii_forall (P := fun c => c ≠ '0' → Byte.of c ≠ Byte.zero) (by decide) hlt
      fun h => hzero (congrArg some h)

theorem skipExponent_encode {sign digits : List Char}
    (hsign : sign = [] ∨ sign = ['+'] ∨ sign = ['-']) (hd : IsDigits digits) (hs : Ends s) :
    skipExponent (encode sign ++ (encode digits ++ s)) = .ok s := by
  obtain ⟨b, more, he, hdigit, -, hskip⟩ := hd.exists_encode_eq
  have hskip := hskip s fun b hb => (hs b hb).1
  have hplus : b ≠ Byte.plus := by rintro rfl; cases hdigit
  have hminus : b ≠ Byte.minus := by rintro rfl; cases hdigit
  rw [he]
  rcases hsign with rfl | rfl | rfl
  · simp [skipExponent, hplus, hminus, hdigit, hskip]
  · exact (if_pos hdigit).trans (congrArg Except.ok hskip)
  · exact (if_pos hdigit).trans (congrArg Except.ok hskip)

theorem skipExponentPart_encode (h : IsExponent w) (hs : Ends s) :
    skipExponentPart (encode w ++ s) = .ok s := by
  rcases h with rfl | ⟨mark, sign, digits, rfl, hmark, hsign, hd⟩
  · cases s with
    | nil => rfl
    | cons b s => simp [skipExponentPart, (hs b rfl).2.2]
  · have hexp := skipExponent_encode hsign hd hs
    simp only [encode_cons, encode_append, List.append_assoc]
    rcases hmark with rfl | rfl
    · exact hexp
    · exact hexp

/-- Neither an exponent nor what ends a number carries on the digits in front of it. -/
theorem IsExponent.head (h : IsExponent w) (hs : Ends s) :
    ∀ b ∈ (encode w ++ s).head?, Byte.isDigit b = false ∧ b ≠ Byte.dot := by
  intro b hb
  rcases h with rfl | ⟨mark, sign, digits, rfl, rfl | rfl, -, -⟩
  · exact ⟨(hs b hb).1, (hs b hb).2.1⟩
  · cases hb; decide
  · cases hb; decide

/-- A fraction and an exponent are passed over, and carry on no digits in front of them. -/
theorem skipFractionPart_encode {v : List Char} (hf : IsFraction w) (he : IsExponent v)
    (hs : Ends s) :
    skipFractionPart (encode w ++ (encode v ++ s)) = .ok s ∧
      ∀ b ∈ (encode w ++ (encode v ++ s)).head?, Byte.isDigit b = false := by
  have hexp := skipExponentPart_encode he hs
  have hhead := he.head hs
  rcases hf with rfl | ⟨digits, rfl, hd⟩
  · refine ⟨?_, fun b hb => (hhead b hb).1⟩
    rw [encode_nil, List.nil_append, skipFractionPart]
    · exact hexp
    · intro rest heq
      rw [heq] at hhead
      exact (hhead _ rfl).2 rfl
  · obtain ⟨b, more, hw, hdigit, -, hskip⟩ := hd.exists_encode_eq
    have hskip := hskip (encode v ++ s) fun b hb => (hhead b hb).1
    simp only [encode_cons, List.append_assoc, hw]
    refine ⟨?_, by rintro b ⟨⟩; decide⟩
    exact (if_pos hdigit).trans ((congrArg skipExponentPart hskip).trans hexp)

/-- A number is passed over from behind its sign; what is left of it begins with a digit. -/
theorem skipNumber_encode {whole fraction exponent : List Char} (hw : IsWhole whole)
    (hf : IsFraction fraction) (he : IsExponent exponent) :
    ∃ b rest, encode (whole ++ (fraction ++ exponent)) = b :: rest ∧ Byte.isDigit b = true ∧
      ∀ s, Ends s → skipNumber (b :: (rest ++ s)) = .ok s := by
  rcases hw with rfl | ⟨hd, hzero⟩
  · refine ⟨Byte.zero, encode (fraction ++ exponent), rfl, rfl, fun s hs => ?_⟩
    obtain ⟨hskip, hhead⟩ := skipFractionPart_encode hf he hs
    rw [encode_append, List.append_assoc]
    generalize encode fraction ++ (encode exponent ++ s) = tail at hskip hhead
    cases tail with
    | nil => exact hskip
    | cons b tail => exact (if_neg (by simp [hhead b rfl])).trans hskip
  · obtain ⟨b, digits, hw, hdigit, hb, hdigits⟩ := hd.exists_encode_eq
    refine ⟨b, digits ++ encode (fraction ++ exponent), by rw [encode_append, hw]; rfl, hdigit,
      fun s hs => ?_⟩
    obtain ⟨hskip, hhead⟩ := skipFractionPart_encode hf he hs
    have hb := hb hzero
    rw [encode_append, List.append_assoc, List.append_assoc]
    simp [skipNumber, hb, hdigit, hdigits _ hhead, hskip]

/-! ### What is passed over in one step -/

theorem skipValue_congr (h : skipBlanks s = skipBlanks s') :
    skipValue outer s = skipValue outer s' := by
  rw [skipValue, skipValue]
  generalize skipBlanks s = t at h
  subst h
  rfl

theorem skipMember_congr (h : skipBlanks s = skipBlanks s') :
    skipMember outer s = skipMember outer s' := by
  rw [skipMember, skipMember]
  generalize skipBlanks s = t at h
  subst h
  rfl

theorem skipAfterValue_congr {inside : Enclosing} (h : skipBlanks s = skipBlanks s') :
    skipAfterValue (inside :: outer) s = skipAfterValue (inside :: outer) s' := by
  cases inside with
  | list =>
    rw [skipAfterValue, skipAfterValue]
    generalize skipBlanks s = t at h
    subst h
    rfl
  | object =>
    rw [skipAfterValue, skipAfterValue]
    generalize skipBlanks s = t at h
    subst h
    rfl

theorem skipBlanks_cons (hb : Byte.isBlank b = false) (s : Bytes) : skipBlanks (b :: s) = b :: s :=
  List.dropWhile_cons_of_neg (by simp [hb])

theorem skipValue_scalar (hb : Byte.isBlank b = false) (hl : b ≠ Byte.openBracket)
    (ho : b ≠ Byte.openBrace) (h : skipScalar b s = .ok r) :
    skipValue outer (b :: s) = skipAfterValue outer r := by
  have hs := skipBlanks_cons hb s
  rw [skipValue]
  split
  · next h' => rw [hs] at h'; cases h'
  · next h' => rw [hs] at h'; cases h'; exact absurd rfl hl
  · next h' => rw [hs] at h'; cases h'; exact absurd rfl ho
  · next h' =>
    rw [hs] at h'
    cases h'
    split
    · next he => rw [h] at he; cases he
    · next he => rw [h] at he; cases he; rfl

theorem skipValue_openBracket (rest : Bytes) :
    skipValue outer (Byte.openBracket :: rest) =
      match skipBlanks rest with
      | [] => .error .endInList
      | Byte.closeBracket :: behind => skipAfterValue outer behind
      | _ => skipValue (.list :: outer) rest := by
  rw [skipValue]
  split
  · next h => cases h
  · next h =>
    cases h
    split
    · next h => rw [h]
    · next h => rw [h]; rfl
    · split
      · simp_all
      · simp_all
      · rfl
  · next h => cases h
  · next hl _ h => cases h; exact (hl rfl).elim

theorem skipValue_openBrace (rest : Bytes) :
    skipValue outer (Byte.openBrace :: rest) =
      match skipBlanks rest with
      | [] => .error .endInObject
      | Byte.closeBrace :: behind => skipAfterValue outer behind
      | _ => skipMember outer rest := by
  rw [skipValue]
  split
  · next h => cases h
  · next h => cases h
  · next h =>
    cases h
    split
    · next h => rw [h]
    · next h => rw [h]; rfl
    · split
      · simp_all
      · simp_all
      · rfl
  · next _ ho h => cases h; exact (ho rfl).elim

theorem skipMember_key (hk : skipText s = .ok r) (hc : skipBlanks r = Byte.colon :: rest) :
    skipMember outer (Byte.quote :: s) = skipValue (.object :: outer) rest := by
  rw [skipMember]
  split
  · next h => cases h
  · next h =>
    cases h
    split
    · next he => rw [hk] at he; cases he
    · next he =>
      rw [hk] at he
      cases he
      split
      · next h => rw [hc] at h; cases h
      · next h => rw [hc] at h; cases h; rfl
      · next hne => exact absurd hc (hne _)
  · next hne => exact absurd rfl (hne _)

theorem skipAfterValue_comma (s : Bytes) :
    skipAfterValue (.list :: outer) (Byte.comma :: s) = skipValue (.list :: outer) s := by
  rw [skipAfterValue]
  rfl

theorem skipAfterValue_closeBracket (s : Bytes) :
    skipAfterValue (.list :: outer) (Byte.closeBracket :: s) = skipAfterValue outer s := by
  rw [skipAfterValue]
  rfl

theorem skipAfterValue_comma_object (s : Bytes) :
    skipAfterValue (.object :: outer) (Byte.comma :: s) = skipMember outer s := by
  rw [skipAfterValue]
  rfl

theorem skipAfterValue_closeBrace (s : Bytes) :
    skipAfterValue (.object :: outer) (Byte.closeBrace :: s) = skipAfterValue outer s := by
  rw [skipAfterValue]
  rfl

/-! ### Phrases -/

/-- A byte that neither opens nor closes anything, and is no white space. -/
structure Inner (b : UInt8) : Prop where
  not_blank : Byte.isBlank b = false
  ne_openBracket : b ≠ Byte.openBracket
  ne_openBrace : b ≠ Byte.openBrace
  ne_closeBracket : b ≠ Byte.closeBracket
  ne_closeBrace : b ≠ Byte.closeBrace

theorem Inner.of_isDigit (hb : Byte.isDigit b = true) : Inner b where
  not_blank := by
    simp only [Byte.isBlank, Bool.or_eq_false_iff, beq_eq_false_iff_ne]
    refine ⟨⟨⟨?_, ?_⟩, ?_⟩, ?_⟩ <;> rintro rfl <;> cases hb
  ne_openBracket := by rintro rfl; cases hb
  ne_openBrace := by rintro rfl; cases hb
  ne_closeBracket := by rintro rfl; cases hb
  ne_closeBrace := by rintro rfl; cases hb

/-- A number is passed over as a scalar. -/
theorem IsNumber.exists_skipScalar_eq (h : IsNumber w) :
    ∃ b rest, encode w = b :: rest ∧ Inner b ∧
      ∀ s, Ends s → skipScalar b (rest ++ s) = .ok s := by
  obtain ⟨sign, whole, fraction, exponent, rfl, hsign, hw, hf, he⟩ := h
  obtain ⟨b, rest, heq, hdigit, hskip⟩ := skipNumber_encode hw hf he
  rcases hsign with rfl | rfl
  · refine ⟨b, rest, heq, .of_isDigit hdigit, fun s hs => ?_⟩
    rw [skipScalar, if_pos hdigit]
    · exact hskip s hs
    all_goals rintro rfl; cases hdigit
  · refine ⟨Byte.minus, b :: rest, by rw [encode_append, heq]; rfl,
      by constructor <;> decide, fun s hs => ?_⟩
    exact hskip s hs

/-- A phrase does not begin as if it closed what is open around it. -/
theorem Derives.exists_skipBlanks_eq {phrase : Phrase} (h : Derives phrase w) (s : Bytes) :
    ∃ b rest, skipBlanks (encode w ++ s) = b :: rest ∧ b ≠ Byte.closeBracket ∧
      b ≠ Byte.closeBrace := by
  induction h generalizing s with
  | null => exact ⟨Byte.letterN, _, rfl, by decide, by decide⟩
  | yes => exact ⟨Byte.letterT, _, rfl, by decide, by decide⟩
  | no => exact ⟨Byte.letterF, _, rfl, by decide, by decide⟩
  | number h =>
    obtain ⟨b, rest, heq, hb, -⟩ := h.exists_skipScalar_eq
    rw [heq, List.cons_append, skipBlanks_cons hb.not_blank]
    exact ⟨b, _, rfl, hb.ne_closeBracket, hb.ne_closeBrace⟩
  | text h => exact ⟨Byte.quote, _, rfl, by decide, by decide⟩
  | emptyList h => exact ⟨Byte.openBracket, _, rfl, by decide, by decide⟩
  | list h => exact ⟨Byte.openBracket, _, rfl, by decide, by decide⟩
  | emptyObject h => exact ⟨Byte.openBrace, _, rfl, by decide, by decide⟩
  | object h => exact ⟨Byte.openBrace, _, rfl, by decide, by decide⟩
  | element hbefore _ _ ih =>
    rw [encode_append, encode_append, List.append_assoc, List.append_assoc,
      skipBlanks_encode hbefore]
    exact ih _
  | lastElement _ ih => exact ih s
  | moreElements _ _ ih _ =>
    rw [encode_append, List.append_assoc]
    exact ih _
  | member hbefore _ _ _ _ =>
    rw [encode_append, List.append_assoc, skipBlanks_encode hbefore]
    exact ⟨Byte.quote, _, rfl, by decide, by decide⟩
  | lastMember _ ih => exact ih s
  | moreMembers _ _ ih _ =>
    rw [encode_append, List.append_assoc]
    exact ih _

/-- What it is to pass over a phrase: with what is open around it, up to what is behind it. -/
def Skipped : Phrase → List Char → Prop
  | .value, w => ∀ outer s, Ends s →
    skipValue outer (encode w ++ s) = skipAfterValue outer s
  | .element, w => ∀ inside outer s, Ends s →
    skipValue (inside :: outer) (encode w ++ s) = skipAfterValue (inside :: outer) s
  | .elements, w => ∀ outer s,
    skipValue (.list :: outer) (encode w ++ Byte.closeBracket :: s) = skipAfterValue outer s
  | .member, w => ∀ outer s, Ends s →
    skipMember outer (encode w ++ s) = skipAfterValue (.object :: outer) s
  | .members, w => ∀ outer s,
    skipMember outer (encode w ++ Byte.closeBrace :: s) = skipAfterValue outer s

/-- White space, like a comma or what closes, carries on no number. -/
theorem Ends.blank {ws : List Char} (hws : Blank ws) (hs : Ends s) : Ends (encode ws ++ s) := by
  cases ws with
  | nil => exact hs
  | cons c ws =>
    intro b hb
    rcases hws c List.mem_cons_self with rfl | rfl | rfl | rfl <;> cases hb <;> decide

theorem ends_cons (h : Byte.isDigit b = false ∧ b ≠ Byte.dot ∧ Byte.isExponentMark b = false)
    (s : Bytes) : Ends (b :: s) := by
  intro b' hb
  cases hb
  exact h

/-- **Every phrase is passed over.** -/
theorem Derives.skipped {phrase : Phrase} (h : Derives phrase w) : Skipped phrase w := by
  induction h with
  | null => exact fun outer s _ => skipValue_scalar rfl (by decide) (by decide) rfl
  | yes => exact fun outer s _ => skipValue_scalar rfl (by decide) (by decide) rfl
  | no => exact fun outer s _ => skipValue_scalar rfl (by decide) (by decide) rfl
  | number h =>
    intro outer s hs
    obtain ⟨b, rest, heq, hb, hskip⟩ := h.exists_skipScalar_eq
    rw [heq]
    exact skipValue_scalar hb.not_blank hb.ne_openBracket hb.ne_openBrace (hskip s hs)
  | text h =>
    intro outer s _
    rw [encode_within (by decide) (by decide)]
    exact skipValue_scalar rfl (by decide) (by decide) (skipText_encode h _)
  | emptyList hws =>
    intro outer s _
    rw [encode_within (by decide) (by decide)]
    refine (skipValue_openBracket _).trans ?_
    rw [skipBlanks_encode hws]
    rfl
  | list hw ih =>
    intro outer s _
    rw [encode_within (by decide) (by decide)]
    refine (skipValue_openBracket _).trans ?_
    obtain ⟨b, rest, hopen, hb, -⟩ := hw.exists_skipBlanks_eq (Byte.of ']' :: s)
    rw [hopen]
    split
    · next h => cases h
    · next h => cases h; exact absurd rfl hb
    · exact ih outer s
  | emptyObject hws =>
    intro outer s _
    rw [encode_within (by decide) (by decide)]
    refine (skipValue_openBrace _).trans ?_
    rw [skipBlanks_encode hws]
    rfl
  | object hw ih =>
    intro outer s _
    rw [encode_within (by decide) (by decide)]
    refine (skipValue_openBrace _).trans ?_
    obtain ⟨b, rest, hopen, -, hb⟩ := hw.exists_skipBlanks_eq (Byte.of '}' :: s)
    rw [hopen]
    split
    · next h => cases h
    · next h => cases h; exact absurd rfl hb
    · exact ih outer s
  | element hbefore _ hbehind ih =>
    intro inside outer s hs
    simp only [encode_append, List.append_assoc]
    rw [skipValue_congr (skipBlanks_encode hbefore _), ih _ _ (hs.blank hbehind),
      skipAfterValue_congr (skipBlanks_encode hbehind _)]
  | lastElement _ ih =>
    intro outer s
    rw [ih _ _ _ (ends_cons (by decide) _), skipAfterValue_closeBracket]
  | moreElements _ _ ih ihmore =>
    intro outer s
    simp only [encode_cons, encode_append, List.append_assoc]
    refine (ih _ _ _ (ends_cons (by decide) _)).trans ?_
    exact (skipAfterValue_comma _).trans (ihmore outer s)
  | member hbefore hkey hbehind _ ih =>
    intro outer s hs
    simp only [encode_cons, encode_append, List.append_assoc]
    rw [skipMember_congr (skipBlanks_encode hbefore _)]
    refine (skipMember_key (skipText_encode hkey _) (skipBlanks_encode hbehind _)).trans ?_
    exact ih _ _ _ hs
  | lastMember _ ih =>
    intro outer s
    rw [ih _ _ (ends_cons (by decide) _), skipAfterValue_closeBrace]
  | moreMembers _ _ ih ihmore =>
    intro outer s
    simp only [encode_cons, encode_append, List.append_assoc]
    refine (ih _ _ (ends_cons (by decide) _)).trans ?_
    exact (skipAfterValue_comma_object _).trans (ihmore outer s)

end Packrat.Json
