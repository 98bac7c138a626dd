import Packrat.Primitive
import Mathlib.Tactic.Common

/-!
# What primitives match

What a primitive matches is said without moving an offset on: the text falls into a front that ends
at the offset, the characters taken, and a rest.

* `Primitive.Takes`: the characters that a primitive takes, with what may be left behind them.
* `Primitive.MatchesAt`: a text that falls apart so at an offset.
* `Primitive.accepts_iff`: **primitives match where the text falls apart so.**
* `Primitive.attempt_eq`: the attempt of a primitive, by how the text falls apart.
-/

namespace Packrat

namespace Input

variable {input : Input} {pos : Nat}

theorem isSome_charAt? : (input.charAt? pos).isSome = true ↔ pos < input.length := by
  simp [charAt?, length]

/-- The character at an offset has a front before it and a rest behind it. -/
theorem charAt?_eq_some_iff {c : Char} :
    input.charAt? pos = some c ↔
      ∃ front rest, input.chars.toList = front ++ c :: rest ∧ front.length = pos := by
  rw [charAt?, ← Array.getElem?_toList]
  constructor
  · intro hchar
    obtain ⟨hlt, rfl⟩ := List.getElem?_eq_some_iff.1 hchar
    refine ⟨input.chars.toList.take pos, input.chars.toList.drop (pos + 1), ?_, ?_⟩
    · rw [← List.drop_eq_getElem_cons hlt, List.take_append_drop]
    · exact List.length_take_of_le (Nat.le_of_lt hlt)
  · rintro ⟨front, rest, hchars, rfl⟩
    simp [hchars]

/-- A character of some kind stands at an offset. -/
theorem any_charAt?_iff {wanted : Char → Bool} :
    (input.charAt? pos).any wanted = true ↔
      ∃ front c rest, input.chars.toList = front ++ c :: rest ∧ front.length = pos ∧
        wanted c = true := by
  rw [Option.any_eq_true]
  constructor
  · rintro ⟨c, hchar, hwanted⟩
    obtain ⟨front, rest, hchars, hfront⟩ := charAt?_eq_some_iff.1 hchar
    exact ⟨front, c, rest, hchars, hfront, hwanted⟩
  · rintro ⟨front, c, rest, hchars, hfront, hwanted⟩
    exact ⟨c, charAt?_eq_some_iff.2 ⟨front, rest, hchars, hfront⟩, hwanted⟩

end Input

namespace Primitive

variable {p : Primitive} {input : Input} {taken rest : List Char} {pos : Nat}

/-- A primitive takes some characters, with a rest behind them. -/
inductive Takes : Primitive → List Char → List Char → Prop where
  | any (c : Char) (rest : List Char) : Takes .any [c] rest
  | range (chars : CharRange) (c : Char) (rest : List Char) (hlo : chars.lo ≤ c)
      (hhi : c ≤ chars.hi) : Takes (.range chars) [c] rest
  | set (chars : CharSet) (c : Char) (rest : List Char) (hmem : chars.contains c = true) :
      Takes (.set chars) [c] rest
  | literal (text : Array Char) (rest : List Char) : Takes (.literal text) text.toList rest
  /-- Nothing is taken at the end, and nothing is left behind it. -/
  | eof : Takes .eof [] []

/-- The text falls into a front that ends at an offset, characters that a primitive takes, and a
rest. -/
def MatchesAt (p : Primitive) (input : Input) (pos : Nat) : Prop :=
  ∃ front taken rest, input.chars.toList = front ++ (taken ++ rest) ∧ front.length = pos ∧
    p.Takes taken rest

theorem Takes.length_eq (h : p.Takes taken rest) : taken.length = p.width := by
  cases h <;> simp [width]

/-- What is taken is inside the text. -/
theorem MatchesAt.le_length (h : p.MatchesAt input pos) : pos + p.width ≤ input.length := by
  obtain ⟨front, taken, rest, hchars, rfl, htakes⟩ := h
  have hlength := congrArg List.length hchars
  rw [Array.length_toList, List.length_append, List.length_append, htakes.length_eq] at hlength
  rw [Input.length]
  omega

/-- A literal from its place `i` on stands at an offset where the rest of the text begins so. -/
theorem literalAt_iff (input : Input) (text : Array Char) (pos i : Nat) :
    literalAt input text pos i = true ↔
      text.toList.drop i <+: input.chars.toList.drop pos := by
  fun_induction literalAt input text pos i with
  | case1 pos i hi ih =>
    have htext : text.toList.drop i = text[i] :: text.toList.drop (i + 1) := by
      rw [List.drop_eq_getElem_cons (by simpa using hi), Array.getElem_toList]
    rw [Bool.and_eq_true, beq_iff_eq, ih, htext]
    by_cases hpos : pos < input.chars.size
    · have hchars : input.chars.toList.drop pos =
          input.chars[pos] :: input.chars.toList.drop (pos + 1) := by
        rw [List.drop_eq_getElem_cons (by simpa using hpos), Array.getElem_toList]
      rw [hchars, List.cons_prefix_cons, Input.charAt?, Array.getElem?_eq_getElem hpos,
        Option.some_inj, eq_comm]
    · -- the text ends before the literal does
      have hnone : input.charAt? pos = none := Array.getElem?_eq_none (by omega)
      have hnil : input.chars.toList.drop pos = [] := List.drop_of_length_le (by simpa using hpos)
      rw [hnone, hnil]
      simp
  | case2 pos i hi =>
    have hnil : text.toList.drop i = [] := List.drop_of_length_le (by simpa using hi)
    rw [hnil]
    simp

theorem matchesAt_literal {text : Array Char} :
    (literal text).MatchesAt input pos ↔
      pos + text.size ≤ input.length ∧ text.toList <+: input.chars.toList.drop pos := by
  constructor
  · intro h
    refine ⟨h.le_length, ?_⟩
    obtain ⟨front, taken, rest, hchars, rfl, ⟨⟩⟩ := h
    rw [hchars, List.drop_left]
    exact List.prefix_append _ _
  · rintro ⟨hle, rest, hrest⟩
    refine ⟨input.chars.toList.take pos, text.toList, rest, ?_, ?_, .literal text rest⟩
    · rw [hrest, List.take_append_drop]
    · rw [Input.length] at hle
      exact List.length_take_of_le (by rw [Array.length_toList]; omega)

/-- **A primitive matches where the text falls apart as it says.** -/
theorem accepts_iff : p.accepts input pos = true ↔ p.MatchesAt input pos := by
  unfold accepts
  cases p with
  | any =>
    constructor
    · intro h
      obtain ⟨c, hchar⟩ := Option.isSome_iff_exists.1 h
      obtain ⟨front, rest, hchars, hfront⟩ := Input.charAt?_eq_some_iff.1 hchar
      exact ⟨front, [c], rest, hchars, hfront, .any c rest⟩
    · intro h
      exact Input.isSome_charAt?.2 h.le_length
  | range chars =>
    rw [Input.any_charAt?_iff]
    constructor
    · rintro ⟨front, c, rest, hchars, hfront, hc⟩
      obtain ⟨hlo, hhi⟩ := CharRange.contains_iff.1 hc
      exact ⟨front, [c], rest, hchars, hfront, .range chars c rest hlo hhi⟩
    · rintro ⟨front, taken, rest, hchars, hfront, htakes⟩
      cases htakes with
      | range _ c _ hlo hhi =>
        exact ⟨front, c, rest, hchars, hfront, CharRange.contains_iff.2 ⟨hlo, hhi⟩⟩
  | set chars =>
    rw [Input.any_charAt?_iff]
    constructor
    · rintro ⟨front, c, rest, hchars, hfront, hc⟩
      exact ⟨front, [c], rest, hchars, hfront, .set chars c rest hc⟩
    · rintro ⟨front, taken, rest, hchars, hfront, htakes⟩
      cases htakes with
      | set _ c _ hmem => exact ⟨front, c, rest, hchars, hfront, hmem⟩
  | literal text =>
    rw [Bool.and_eq_true, decide_eq_true_eq, literalAt_iff, List.drop_zero, matchesAt_literal]
  | eof =>
    rw [beq_iff_eq]
    constructor
    · intro hpos
      refine ⟨input.chars.toList, [], [], by simp, ?_, .eof⟩
      rw [hpos, Array.length_toList, Input.length]
    · rintro ⟨front, taken, rest, hchars, rfl, ⟨⟩⟩
      rw [Input.length, ← Array.length_toList, hchars]
      simp

instance (p : Primitive) (input : Input) (pos : Nat) : Decidable (p.MatchesAt input pos) :=
  decidable_of_iff _ accepts_iff

/-- **The attempt of a primitive**, by how the text falls apart. -/
theorem attempt_eq (p : Primitive) (input : Input) (pos : Nat) :
    p.attempt input pos =
      if p.MatchesAt input pos then .ofBounds pos (pos + p.width)
      else .noMatchAt (min pos input.length) := by
  unfold attempt
  simp only [accepts_iff]

end Primitive

end Packrat
