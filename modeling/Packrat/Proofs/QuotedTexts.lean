import Packrat.Text.Quoted
import Mathlib.Data.List.Basic

/-!
# Quoted texts can be read back

In the quoted form that is all printable ASCII no character is written as the beginning of what
another one is written as, and none begins with the closing quote. So a quoted text tells which
text was quoted, and where it ends.

* `showAscii_shown`: the ways in which a character is written, and which of them is taken.
* `Shown.append_inj`: what a character is written as tells the character.
* `quoteAscii_append_inj`, `quoteAscii_injective`: **a quoted text tells the text.**
* `printable_of_mem_quoteAscii`: **it is all printable ASCII.**
-/

namespace Packrat.Text

/-! ### Hexadecimal digits -/

theorem digitChar_injOn {m n : Nat} (hm : m < 16) (hn : n < 16)
    (h : m.digitChar = n.digitChar) : m = n := by
  have hall : ∀ m < 16, ∀ n < 16, m.digitChar = n.digitChar → m = n := by decide
  exact hall m hm n hn h

/-- What holds of the digits holds of all that a number is written with. -/
theorem forall_mem_toDigits {P : Char → Prop} (hdigit : ∀ k < 16, P k.digitChar) (n : Nat) :
    ∀ c ∈ Nat.toDigits 16 n, P c := by
  induction n using Nat.strongRecOn with
  | _ n ih =>
    intro c hc
    rw [Nat.toDigits_eq_if (by decide)] at hc
    split at hc
    · next hlt =>
      rw [List.mem_singleton.1 hc]
      exact hdigit n hlt
    · rcases List.mem_append.1 hc with hc | hc
      · exact ih (n / 16) (by omega) c hc
      · rw [List.mem_singleton.1 hc]
        exact hdigit (n % 16) (Nat.mod_lt n (by decide))

/-- **A number is told by its hexadecimal digits.** -/
theorem toDigits_injective : Function.Injective (Nat.toDigits 16) := by
  intro m
  induction m using Nat.strongRecOn with
  | _ m ih =>
    intro n h
    have hdigits (k : Nat) : Nat.toDigits 16 k =
        (if k < 16 then [] else Nat.toDigits 16 (k / 16)) ++ [(k % 16).digitChar] := by
      rw [Nat.toDigits_eq_if (by decide)]
      split
      · next hlt => rw [Nat.mod_eq_of_lt hlt, List.nil_append]
      · rfl
    rw [hdigits m, hdigits n] at h
    obtain ⟨hfront, hlast⟩ := List.append_inj' h rfl
    have hmod : m % 16 = n % 16 := by
      have hchars : (m % 16).digitChar = (n % 16).digitChar := by simpa using hlast
      exact digitChar_injOn (Nat.mod_lt m (by decide)) (Nat.mod_lt n (by decide)) hchars
    by_cases hm : m < 16
    · by_cases hn : n < 16
      · omega
      · rw [if_pos hm, if_neg hn] at hfront
        exact absurd hfront.symm Nat.toDigits_ne_nil
    · by_cases hn : n < 16
      · rw [if_neg hm, if_pos hn] at hfront
        exact absurd hfront Nat.toDigits_ne_nil
      · rw [if_neg hm, if_neg hn] at hfront
        have hdiv : m / 16 = n / 16 := ih (m / 16) (by omega) hfront
        omega

/-! ### Single characters -/

/-- The characters that are written as a backslash and one more character, and that character. -/
def letterEscapes : List (Char × Char) :=
  [('\t', 't'), ('\r', 'r'), ('\n', 'n'), ('\'', '\''), ('"', '"'), ('\\', '\\')]

/-- The ways in which a character is written. -/
inductive Shown (c : Char) : List Char → Prop where
  | plain (hquote : c ≠ '\'') (hback : c ≠ '\\') (hprintable : ' ' ≤ c ∧ c ≤ '~') : Shown c [c]
  | letter (l : Char) (hl : (c, l) ∈ letterEscapes) : Shown c ['\\', l]
  | codePoint : Shown c (escapeCodePoint c)

variable {c d : Char} {w v x y : List Char}

theorem showAscii_shown (c : Char) : Shown c (showAscii c) := by
  unfold showAscii
  split_ifs with htab hreturn hnewline hescaped hprintable
  · exact .letter 't' (by simp [htab, letterEscapes])
  · exact .letter 'r' (by simp [hreturn, letterEscapes])
  · exact .letter 'n' (by simp [hnewline, letterEscapes])
  · rcases hescaped with rfl | rfl | rfl <;> exact .letter _ (by decide)
  · exact .plain (fun h => hescaped (.inl h)) (fun h => hescaped (.inr (.inr h))) hprintable
  · exact .codePoint

theorem letter_ne_u {l : Char} (hl : (c, l) ∈ letterEscapes) : l ≠ 'u' := by
  have hall : ∀ p ∈ letterEscapes, p.2 ≠ 'u' := by decide
  exact hall (c, l) hl

theorem eq_of_letter {l : Char} (hc : (c, l) ∈ letterEscapes) (hd : (d, l) ∈ letterEscapes) :
    c = d := by
  have hall : ∀ p ∈ letterEscapes, ∀ q ∈ letterEscapes, p.2 = q.2 → p.1 = q.1 := by decide
  exact hall (c, l) hc (d, l) hd rfl

/-- The digits of a code point end at the closing brace. -/
theorem escapeCodePoint_append_inj (h : escapeCodePoint c ++ x = escapeCodePoint d ++ y) :
    c = d ∧ x = y := by
  have hnobrace (n : Nat) : ∀ digit ∈ Nat.toDigits 16 n, decide (digit ≠ '}') = true :=
    forall_mem_toDigits (by decide) n
  have hrest : Nat.toDigits 16 c.toNat ++ '}' :: x = Nat.toDigits 16 d.toNat ++ '}' :: y := by
    simpa [escapeCodePoint] using h
  have htaken := congrArg (List.takeWhile fun digit => decide (digit ≠ '}')) hrest
  rw [List.takeWhile_append_of_pos (hnobrace _),
    List.takeWhile_append_of_pos (hnobrace _)] at htaken
  have hdigits : Nat.toDigits 16 c.toNat = Nat.toDigits 16 d.toNat := by simpa using htaken
  rw [hdigits, List.append_cancel_left_eq] at hrest
  exact ⟨Char.toNat_inj.1 (toDigits_injective hdigits), (List.cons.inj hrest).2⟩

/-- **What a character is written as tells the character**, whatever is behind it. -/
theorem Shown.append_inj (hc : Shown c w) (hd : Shown d v) (h : w ++ x = v ++ y) :
    c = d ∧ x = y := by
  cases hc with
  | plain _ hback =>
    cases hd with
    | plain => exact List.cons.inj h
    | letter l => exact absurd (List.cons.inj h).1 hback
    | codePoint => exact absurd (List.cons.inj h).1 hback
  | letter l hl =>
    cases hd with
    | plain _ hback => exact absurd (List.cons.inj h).1.symm hback
    | letter l' hl' =>
      obtain ⟨rfl, hrest⟩ := List.cons.inj (List.cons.inj h).2
      exact ⟨eq_of_letter hl hl', hrest⟩
    | codePoint => exact absurd (List.cons.inj (List.cons.inj h).2).1 (letter_ne_u hl)
  | codePoint =>
    cases hd with
    | plain _ hback => exact absurd (List.cons.inj h).1.symm hback
    | letter l hl => exact absurd (List.cons.inj (List.cons.inj h).2).1.symm (letter_ne_u hl)
    | codePoint => exact escapeCodePoint_append_inj h

/-- No character begins with the closing quote. -/
theorem Shown.append_ne (hc : Shown c w) : w ++ x ≠ '\'' :: y := by
  intro h
  cases hc with
  | plain hquote => exact hquote (List.cons.inj h).1
  | letter l => exact absurd (List.cons.inj h).1 (by decide)
  | codePoint => exact absurd (List.cons.inj h).1 (by decide)

/-- What a character is written as is printable ASCII. -/
theorem Shown.printable (hc : Shown c w) : ∀ e ∈ w, ' ' ≤ e ∧ e ≤ '~' := by
  cases hc with
  | plain _ _ hprintable =>
    intro e he
    rw [List.mem_singleton.1 he]
    exact hprintable
  | letter l hl =>
    have hall : letterEscapes.all (fun p => ['\\', p.2].all fun e => ' ' ≤ e ∧ e ≤ '~') = true := by
      decide
    intro e he
    exact of_decide_eq_true (List.all_eq_true.1 (List.all_eq_true.1 hall (c, l) hl) e he)
  | codePoint =>
    intro e he
    have hends : ∀ e ∈ ['\\', 'u', '{', '}'], ' ' ≤ e ∧ e ≤ '~' := by
      intro e he
      have hall : ['\\', 'u', '{', '}'].all (fun e => ' ' ≤ e ∧ e ≤ '~') = true := by decide
      exact of_decide_eq_true (List.all_eq_true.1 hall e he)
    rcases List.mem_append.1 he with he | he
    · rcases List.mem_append.1 he with he | he
      · exact hends e (List.mem_append_left ['}'] he)
      · exact forall_mem_toDigits (P := fun e => ' ' ≤ e ∧ e ≤ '~') (by decide) c.toNat e he
    · exact hends e (List.mem_append_right ['\\', 'u', '{'] he)

/-! ### Texts -/

variable {s t : List Char}

@[simp] theorem toList_quoteAscii (s : List Char) :
    (quoteAscii s).toList = '\'' :: (s.flatMap showAscii ++ ['\'']) := by
  rw [quoteAscii, String.toList_ofList, List.cons_append]

/-- A text is told by what its characters are written as, up to the closing quote. -/
theorem flatMap_showAscii_append_inj
    (h : s.flatMap showAscii ++ '\'' :: x = t.flatMap showAscii ++ '\'' :: y) :
    s = t ∧ x = y := by
  induction s generalizing t with
  | nil =>
    cases t with
    | nil => exact ⟨rfl, (List.cons.inj h).2⟩
    | cons d t =>
      rw [List.flatMap_cons, List.append_assoc] at h
      exact absurd h.symm (showAscii_shown d).append_ne
  | cons c s ih =>
    rw [List.flatMap_cons, List.append_assoc] at h
    cases t with
    | nil => exact absurd h (showAscii_shown c).append_ne
    | cons d t =>
      rw [List.flatMap_cons, List.append_assoc] at h
      obtain ⟨rfl, hrest⟩ := (showAscii_shown c).append_inj (showAscii_shown d) h
      obtain ⟨rfl, hbehind⟩ := ih hrest
      exact ⟨rfl, hbehind⟩

/-- **A quoted text tells the text**, whatever is behind it. -/
theorem quoteAscii_append_inj (h : (quoteAscii s).toList ++ x = (quoteAscii t).toList ++ y) :
    s = t ∧ x = y := by
  rw [toList_quoteAscii, toList_quoteAscii, List.cons_append, List.cons_append] at h
  have hbody := (List.cons.inj h).2
  rw [List.append_assoc, List.append_assoc] at hbody
  exact flatMap_showAscii_append_inj hbody

theorem quoteAscii_injective : Function.Injective quoteAscii := by
  intro s t h
  have happend : (quoteAscii s).toList ++ [] = (quoteAscii t).toList ++ [] := by rw [h]
  exact (quoteAscii_append_inj happend).1

/-- **A quoted text is printable ASCII.** -/
theorem printable_of_mem_quoteAscii {e : Char} (he : e ∈ (quoteAscii s).toList) :
    ' ' ≤ e ∧ e ≤ '~' := by
  rw [toList_quoteAscii, List.mem_cons, List.mem_append, List.mem_singleton] at he
  rcases he with rfl | he | rfl
  · decide
  · obtain ⟨c, -, he⟩ := List.mem_flatMap.1 he
    exact (showAscii_shown c).printable e he
  · decide

end Packrat.Text
