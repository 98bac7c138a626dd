import Packrat.Primitive
import Packrat.Proofs.CharSets
import Mathlib.Order.Bounds.Basic

/-!
# What is wrong with a spec

A spec is refused if there is nothing in it, if it is not made of items, or if it is and one of them
is a range the wrong way round. Where it is not made of items it is cut as far as it can be: what is
left over begins with a dash, and no part of the spec that reaches further is made of items.

* `Spec.item?`, `Spec.Reads`: reading items, a range wherever there is one; `Spec.reads_split`:
  **cutting is reading items.**
* `Spec.MadeOfItems`, `Spec.Refused`: what is wrong with a spec, said without cutting it.
* `Spec.isGreatest_of_split`: **cutting goes as far as items go.**
* `Spec.parse_eq_error_iff`: a spec is refused for what is wrong with it.
* `SpecDefect.message_injective`: what is said of a defect tells which one it is.
* `Primitive.charSet_refused`: **why the set of a spec is refused**, and where.
-/

namespace Packrat

namespace Spec

variable {items : List SpecItem} {spec tail : List Char} {defect : SpecDefect}

/-- Reads one character that is no dash, and returns it with what follows. -/
def member? : List Char → Option (Char × List Char)
  | [] => none
  | c :: rest => if c = '-' then none else some (c, rest)

/-- Reads a dash. -/
def dash? : List Char → Option (List Char)
  | [] => none
  | c :: rest => if c = '-' then some rest else none

/-- Reads two characters with a dash between them. -/
def range? (spec : List Char) : Option (SpecItem × List Char) := do
  let (lo, rest) ← member? spec
  let rest ← dash? rest
  let (hi, rest) ← member? rest
  return (.range lo hi, rest)

/-- Reads one item: a range if there is one, or else a character that stands for itself. -/
def item? (spec : List Char) : Option (SpecItem × List Char) :=
  range? spec <|> do
    let (c, rest) ← member? spec
    return (.single c, rest)

/-- Items are read one after another for as long as one can be read, and the rest is left over. -/
inductive Reads : List Char → List SpecItem → List Char → Prop where
  | done {spec : List Char} (h : item? spec = none) : Reads spec [] spec
  | next {spec rest left : List Char} {item : SpecItem} {items : List SpecItem}
      (h : item? spec = some (item, rest)) (hrest : Reads rest items left) :
      Reads spec (item :: items) left

/-- **Cutting is reading items.** -/
theorem reads_split (spec : List Char) : Reads spec (split spec).1 (split spec).2 := by
  have hmember : ∀ {c rest}, c ≠ '-' → member? (c :: rest) = some (c, rest) := fun hc => if_neg hc
  fun_induction split spec with
  | case1 => exact .done rfl
  | case2 rest => exact .done rfl
  | case3 lo rest hlo =>
    -- the range that begins here is given up at its second dash
    refine .next ?_ (.done rfl)
    rw [item?, range?, hmember hlo]
    rfl
  | case4 lo hi rest hlo hhi items left hcut ih =>
    rw [hcut] at ih
    refine .next ?_ ih
    rw [item?, range?, hmember hlo]
    simp [dash?, member?, hhi]
  | case5 c rest hc hnot items left hcut ih =>
    rw [hcut] at ih
    refine .next ?_ ih
    have hrange : range? (c :: rest) = none := by
      rw [range?, hmember hc]
      rcases rest with - | ⟨d, - | ⟨hi, tail⟩⟩
      · rfl
      · by_cases hd : d = '-' <;> simp [dash?, member?, hd]
      · have hd : d ≠ '-' := fun hd => hnot hi tail (by rw [hd])
        simp [dash?, hd]
    rw [item?, hrange, hmember hc]
    rfl

/-- Some items follow each other, with the bounds of their ranges in any order. -/
def MadeOfItems (spec : List Char) : Prop :=
  ∃ items, (∀ item ∈ items, SpecItem.Dashless item) ∧ spec = write items

/-- What is wrong with a spec: there is nothing in it; or it is not made of items, and the longest
part of it that is has a dash behind it; or a range is the first that is the wrong way round. -/
def Refused (spec : List Char) : SpecDefect → Prop
  | .empty => spec = []
  | .danglingDash offset => ¬ MadeOfItems spec ∧ spec[offset]? = some '-' ∧
      IsGreatest {n | n ≤ spec.length ∧ MadeOfItems (spec.take n)} offset
  | .reversedRange lo hi => ∃ front back,
      (∀ item ∈ front ++ .range lo hi :: back, SpecItem.Dashless item) ∧
      spec = write (front ++ .range lo hi :: back) ∧
      (∀ item ∈ front, SpecItem.InOrder item) ∧ hi < lo

/-- Where cutting stops at a dash it stops there as well if the spec ends sooner. -/
theorem split_take (h : split spec = (items, '-' :: tail)) (n : Nat) :
    split (write items ++ '-' :: tail.take n) = (items, '-' :: tail.take n) := by
  have hdash : ∀ rest, split ('-' :: rest) = ([], '-' :: rest) := fun rest => by rw [split]
  fun_induction split spec generalizing items with
  | case1 => cases h
  | case2 rest =>
    cases h
    exact hdash _
  | case3 lo rest hlo =>
    cases h
    have hdashes : ∀ hi others, '-' :: ('-' :: rest).take n = '-' :: hi :: others → hi = '-' := by
      intro hi others heq
      cases n with
      | zero => cases heq
      | succ n =>
        cases heq
        rfl
    have hcut := split_single (c := lo) hlo hdashes
    rw [hdash] at hcut
    exact hcut
  | case4 lo hi rest hlo hhi items left hcut ih =>
    cases h
    have hrest := ih hcut
    show split (lo :: '-' :: hi :: (write items ++ '-' :: tail.take n)) = _
    rw [split_range hlo hhi, hrest]
  | case5 c rest hc hrange items left hcut ih =>
    cases h
    have hrest := ih hcut
    show split (c :: (write items ++ '-' :: tail.take n)) = _
    rw [split_single hc, hrest]
    intro hi others heq
    obtain ⟨rfl, hdashless, -⟩ := eq_of_split hcut
    cases items with
    | nil =>
      -- the dash is the one that cutting stops at, and it stops there with no bound behind it
      have hbound : tail.take n = hi :: others := (List.cons.inj heq).2
      cases tail with
      | nil => simp at hbound
      | cons bound tail => exact absurd rfl (hrange bound tail)
    | cons item items =>
      -- no item begins with a dash
      have hitem := hdashless item List.mem_cons_self
      cases item with
      | single d => exact absurd (List.cons.inj heq).1 hitem
      | range lo bound => exact absurd (List.cons.inj heq).1 hitem.1

theorem madeOfItems_iff : MadeOfItems spec ↔ (split spec).2 = [] := by
  constructor
  · rintro ⟨items, hdashless, rfl⟩
    rw [split_write hdashless]
  · intro hleft
    obtain ⟨hspec, hdashless, -⟩ := eq_of_split (Prod.mk.eta (p := split spec)).symm
    exact ⟨_, hdashless, by rw [hleft, List.append_nil] at hspec; exact hspec⟩

/-- **Cutting goes as far as items go**: no part of the spec that reaches beyond the place where
cutting stops is made of items. -/
theorem isGreatest_of_split (h : split spec = (items, '-' :: tail)) :
    IsGreatest {n | n ≤ spec.length ∧ MadeOfItems (spec.take n)} (write items).length := by
  obtain ⟨rfl, hdashless, -⟩ := eq_of_split h
  refine ⟨⟨by simp, items, hdashless, List.take_left⟩, ?_⟩
  rintro n ⟨-, hmade⟩
  by_contra hlt
  obtain ⟨m, rfl⟩ := Nat.exists_eq_add_of_lt (Nat.lt_of_not_le hlt)
  have htake : (write items ++ '-' :: tail).take ((write items).length + m + 1) =
      write items ++ '-' :: tail.take m := by
    rw [Nat.add_assoc, List.take_length_add_append, List.take_succ_cons]
  rw [htake, madeOfItems_iff, split_take h] at hmade
  cases hmade

/-- A spec that is not made of items is left at a dash, behind the longest part of it that is. -/
theorem refused_of_split (h : split spec = (items, '-' :: tail)) :
    Refused spec (.danglingDash (spec.length - ('-' :: tail).length)) := by
  have hgreatest := isGreatest_of_split h
  obtain ⟨rfl, -, -⟩ := eq_of_split h
  rw [List.length_append, Nat.add_sub_cancel]
  exact ⟨by simp [madeOfItems_iff, h], by simp, hgreatest⟩

theorem reversed?_eq_some_iff {item : SpecItem} {lo hi : Char} :
    item.reversed? = some (lo, hi) ↔ item = .range lo hi ∧ hi < lo := by
  cases item with
  | single c => simp [SpecItem.reversed?]
  | range lo' hi' =>
    simp only [SpecItem.reversed?, Option.ite_none_right_eq_some, SpecItem.range.injEq,
      Option.some.injEq, Prod.mk.injEq]
    constructor
    · rintro ⟨hlt, rfl, rfl⟩
      exact ⟨⟨rfl, rfl⟩, hlt⟩
    · rintro ⟨⟨rfl, rfl⟩, hlt⟩
      exact ⟨hlt, rfl, rfl⟩

/-- The range that is looked for is the first one the wrong way round. -/
theorem findSome?_reversed?_eq_some_iff {lo hi : Char} :
    items.findSome? SpecItem.reversed? = some (lo, hi) ↔ ∃ front back,
      items = front ++ .range lo hi :: back ∧ (∀ item ∈ front, SpecItem.InOrder item) ∧
        hi < lo := by
  rw [List.findSome?_eq_some_iff]
  constructor
  · rintro ⟨front, item, back, rfl, hitem, hfront⟩
    obtain ⟨rfl, hlt⟩ := reversed?_eq_some_iff.1 hitem
    exact ⟨front, back, rfl,
      fun other ho => SpecItem.reversed?_eq_none_iff.1 (hfront other ho), hlt⟩
  · rintro ⟨front, back, rfl, hfront, hlt⟩
    exact ⟨front, _, back, rfl, reversed?_eq_some_iff.2 ⟨rfl, hlt⟩,
      fun other ho => SpecItem.reversed?_eq_none_iff.2 (hfront other ho)⟩

theorem refused_of_parse (h : parse spec = .error defect) : Refused spec defect := by
  unfold parse at h
  split_ifs at h with hempty
  · cases h
    exact List.isEmpty_iff.1 hempty
  · cases hcut : split spec with
    | mk items left =>
      obtain ⟨hspec, hdashless, hleft⟩ := eq_of_split hcut
      rw [hcut] at h
      rcases hleft with rfl | ⟨tail, rfl⟩
      · rw [List.append_nil] at hspec
        cases hreversed : items.findSome? SpecItem.reversed? with
        | none => simp [hreversed] at h
        | some bounds =>
          obtain ⟨front, back, rfl, hfront, hlt⟩ := findSome?_reversed?_eq_some_iff.1 hreversed
          simp only [hreversed, List.isEmpty_nil, if_true, Except.error.injEq] at h
          subst h
          exact ⟨front, back, hdashless, hspec, hfront, hlt⟩
      · simp only [List.isEmpty_cons, Bool.false_eq_true, if_false, Except.error.injEq] at h
        subst h
        exact refused_of_split hcut

/-- A spec is cut at the dash that it is refused for. -/
theorem Refused.offset_add_length {offset : Nat} (h : Refused spec (.danglingDash offset)) :
    offset + (split spec).2.length = spec.length := by
  obtain ⟨hnot, -, hgreatest⟩ := h
  cases hcut : split spec with
  | mk items left =>
    obtain ⟨hspec, -, rfl | ⟨tail, rfl⟩⟩ := eq_of_split hcut
    · exact absurd (madeOfItems_iff.2 (by rw [hcut])) hnot
    · rw [hgreatest.unique (isGreatest_of_split hcut), hspec, List.length_append]

theorem parse_of_refused (h : Refused spec defect) : parse spec = .error defect := by
  cases defect with
  | empty =>
    obtain rfl : spec = [] := h
    rfl
  | danglingDash offset =>
    have hempty : spec.isEmpty = false := by
      cases spec with
      | nil => exact absurd ⟨[], by simp, rfl⟩ h.1
      | cons => rfl
    have hleft : (split spec).2.isEmpty = false :=
      List.isEmpty_eq_false_iff.2 fun hnil => h.1 (madeOfItems_iff.2 hnil)
    have hoffset : spec.length - (split spec).2.length = offset := by
      rw [← h.offset_add_length, Nat.add_sub_cancel]
    simp only [parse, hempty, hleft, hoffset, Bool.false_eq_true, if_false]
  | reversedRange lo hi =>
    obtain ⟨front, back, hdashless, rfl, hfront, hlt⟩ := h
    have hempty : (write (front ++ .range lo hi :: back)).isEmpty = false := by
      simp [write, SpecItem.write]
    have hreversed := findSome?_reversed?_eq_some_iff.2 ⟨front, back, rfl, hfront, hlt⟩
    simp only [parse, hempty, split_write hdashless, Bool.false_eq_true, if_false,
      List.isEmpty_nil, if_true, hreversed]

/-- **A spec is refused for what is wrong with it.** -/
theorem parse_eq_error_iff : parse spec = .error defect ↔ Refused spec defect :=
  ⟨refused_of_parse, parse_of_refused⟩

/-- There is one thing wrong with a spec at most. -/
theorem Refused.unique {other : SpecDefect} (h : Refused spec defect) (h' : Refused spec other) :
    defect = other :=
  Except.error.inj ((parse_of_refused h).symm.trans (parse_of_refused h'))

end Spec

namespace SpecDefect

theorem toList_danglingDash (offset : Nat) : (danglingDash offset).message.toList =
    "dangling '-' at offset ".toList ++ Nat.toDigits 10 offset := by
  show ("dangling '-' at offset " ++ Nat.repr offset).toList = _
  simp [Nat.repr_eq_ofList_toDigits]

theorem toList_reversedRange (lo hi : Char) : (reversedRange lo hi).message.toList =
    "reversed range ".toList ++ [lo, '-', hi] := by
  show ("reversed range " ++ String.singleton lo ++ "-" ++ String.singleton hi).toList = _
  simp

/-- What is said of a defect begins in a way of its own. -/
theorem head?_toList_message (defect : SpecDefect) : defect.message.toList.head? =
    match defect with
    | .empty => some 'e'
    | .danglingDash _ => some 'd'
    | .reversedRange .. => some 'r' := by
  cases defect with
  | empty => rfl
  | danglingDash offset =>
    rw [toList_danglingDash]
    rfl
  | reversedRange lo hi =>
    rw [toList_reversedRange]
    rfl

/-- **What is said of a defect tells which one it is.** -/
theorem message_injective : Function.Injective message := by
  intro defect other h
  have hhead := congrArg (fun text => text.toList.head?) h
  have hchars := congrArg String.toList h
  simp only [head?_toList_message] at hhead
  cases defect <;> cases other <;> simp only [Option.some.injEq, Char.reduceEq] at hhead ⊢
  case danglingDash.danglingDash offset offset' =>
    rw [toList_danglingDash, toList_danglingDash, List.append_cancel_left_eq] at hchars
    rw [← Nat.ofDigitChars_toDigits (b := 10) (n := offset) (by decide) (by decide), hchars,
      Nat.ofDigitChars_toDigits (by decide) (by decide)]
  case reversedRange.reversedRange lo hi lo' hi' =>
    rw [toList_reversedRange, toList_reversedRange, List.append_cancel_left_eq] at hchars
    cases hchars
    rfl

end SpecDefect

namespace Primitive

open Spec (MadeOfItems Refused)

variable {spec : String} {error : GrammarError}

/-- The set of a spec is refused for what is wrong with the spec, which is kept as it is. -/
theorem charSet_eq_error_iff :
    charSet spec = .error error ↔ ∃ defect, error = .malformedCharSet spec defect ∧
      Refused spec.toList defect := by
  simp only [← Spec.parse_eq_error_iff, charSet, CharSet.ofSpec]
  cases Spec.parse spec.toList with
  | ok items => simp [Except.map]
  | error defect => simp [Except.map, eq_comm]

/-- **Why the set of a spec is refused**: if there is nothing in the spec; if it is not made of
items, at the dash behind the longest part of it that is; and if it is, for the first of its ranges
that is the wrong way round. What is left over when items are read from it is no longer than the
spec, and begins at the dash. -/
theorem charSet_refused (h : charSet spec = .error error) :
    ∃ defect, error = .malformedCharSet spec defect ∧
      (defect.message = "empty set" ↔ spec = "") ∧
      ((∃ offset : Nat, defect.message = s!"dangling '-' at offset {offset}") ↔
        spec ≠ "" ∧ ¬ MadeOfItems spec.toList) ∧
      (∀ offset : Nat, defect.message = s!"dangling '-' at offset {offset}" →
        spec.toList[offset]? = some '-' ∧
        IsGreatest {n | n ≤ spec.length ∧ MadeOfItems (spec.toList.take n)} offset ∧
        ∃ items left, Spec.Reads spec.toList items left ∧
          offset + left.length = spec.length) ∧
      (spec ≠ "" → MadeOfItems spec.toList → ∃ items front lo hi back,
        (∀ others, (∀ item ∈ others, SpecItem.Dashless item) ∧ spec.toList = Spec.write others ↔
          others = items) ∧
        items = front ++ .range lo hi :: back ∧ (∀ item ∈ front, SpecItem.InOrder item) ∧ hi < lo ∧
        defect.message = s!"reversed range {lo}-{hi}") := by
  obtain ⟨defect, rfl, hrefused⟩ := charSet_eq_error_iff.1 h
  have hempty : defect.message = "empty set" ↔ defect = .empty :=
    SpecDefect.message_injective.eq_iff (b := .empty)
  have hdash (offset : Nat) : defect.message = s!"dangling '-' at offset {offset}" ↔
      defect = .danglingDash offset :=
    SpecDefect.message_injective.eq_iff (b := .danglingDash offset)
  refine ⟨defect, rfl, ?_⟩
  simp only [hempty, hdash]
  refine ⟨⟨?_, ?_⟩, ⟨?_, ?_⟩, ?_, ?_⟩
  · rintro rfl
    exact String.toList_eq_nil_iff.1 hrefused
  · rintro rfl
    have hnothing : Refused "".toList .empty := rfl
    exact hrefused.unique hnothing
  · rintro ⟨offset, rfl⟩
    exact ⟨fun hnil => hrefused.1 ⟨[], by simp, by rw [hnil]; rfl⟩, hrefused.1⟩
  · rintro ⟨hne, hnot⟩
    cases defect with
    | empty => exact absurd (String.toList_eq_nil_iff.1 hrefused) hne
    | danglingDash offset => exact ⟨offset, rfl⟩
    | reversedRange lo hi =>
      obtain ⟨front, back, hdashless, hspec, -⟩ := hrefused
      exact absurd ⟨_, hdashless, hspec⟩ hnot
  · rintro offset rfl
    rw [← String.length_toList]
    exact ⟨hrefused.2.1, hrefused.2.2, _, _, Spec.reads_split _, hrefused.offset_add_length⟩
  · intro hne hmade
    cases defect with
    | empty => exact absurd (String.toList_eq_nil_iff.1 hrefused) hne
    | danglingDash offset => exact absurd hmade hrefused.1
    | reversedRange lo hi =>
      obtain ⟨front, back, hdashless, hspec, hfront, hlt⟩ := hrefused
      refine ⟨_, front, lo, hi, back, fun others => ⟨?_, ?_⟩, rfl, hfront, hlt, rfl⟩
      · rintro ⟨hothers, hwritten⟩
        exact Spec.write_injective hothers hdashless (hwritten.symm.trans hspec)
      · rintro rfl
        exact ⟨hdashless, hspec⟩

/-- The dash at the end counts before the range the wrong way round. -/
theorem zToADash_refused :
    charSet "z-a-" = .error (.malformedCharSet "z-a-" (.danglingDash 3)) ∧
      IsGreatest {n | n ≤ "z-a-".length ∧ MadeOfItems ("z-a-".toList.take n)} 3 := by
  have h : charSet "z-a-" = .error (.malformedCharSet "z-a-" (.danglingDash 3)) := by decide
  obtain ⟨defect, hdefect, -, -, hoffset, -⟩ := charSet_refused h
  cases hdefect
  exact ⟨h, (hoffset 3 rfl).2.1⟩

end Primitive

end Packrat
