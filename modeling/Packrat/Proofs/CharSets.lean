import Packrat.CharSet
import Mathlib.Data.Char
import Mathlib.Tactic.Common

/-!
# Specs and members of character sets

A spec is cut from the left, and a range is taken wherever there is one. As a dash stands in no
item but a range, no other cut is possible.

* `SpecItem.Dashless`, `SpecItem.InOrder`: what an item must be to stand in a spec.
* `Spec.split_write`, `Spec.eq_of_split`: **cutting undoes writing**, and the other way round.
* `Spec.parse_eq_ok_iff`: the specs that are read, with their items.
* `searchSorted_iff`, `CharSet.contains_ofItems`: **membership**, by halving and by ranges.
* `CharSet.ofSpec_exact`: a spec is accepted for the items that it is made of, and the members of
  the set are those of its items.
-/

namespace Packrat

namespace SpecItem

/-- The characters of an item, apart from the dash of a range, are no dashes. -/
def Dashless : SpecItem → Prop
  | single c => c ≠ '-'
  | range lo hi => lo ≠ '-' ∧ hi ≠ '-'

/-- The bounds of a range are the right way round. -/
def InOrder : SpecItem → Prop
  | single _ => True
  | range lo hi => lo ≤ hi

theorem reversed?_eq_none_iff {item : SpecItem} : item.reversed? = none ↔ item.InOrder := by
  cases item with
  | single c => simp [reversed?, InOrder]
  | range lo hi => simp [reversed?, InOrder]

end SpecItem

namespace Spec

variable {items others : List SpecItem} {spec left : List Char} {c lo hi : Char}

/-- The items of a spec: there are some, without dashes of their own, with ranges the right way
round. -/
structure Valid (items : List SpecItem) : Prop where
  ne_nil : items ≠ []
  dashless : ∀ item ∈ items, item.Dashless
  inOrder : ∀ item ∈ items, item.InOrder

theorem split_range (hlo : lo ≠ '-') (hhi : hi ≠ '-') (rest : List Char) :
    split (lo :: '-' :: hi :: rest) = (.range lo hi :: (split rest).1, (split rest).2) := by
  rw [split, if_neg hhi]
  exact hlo

/-- A character stands for itself unless a dash and another bound follow. -/
theorem split_single (hc : c ≠ '-') {rest : List Char}
    (hrest : ∀ hi tail, rest = '-' :: hi :: tail → hi = '-') :
    split (c :: rest) = (.single c :: (split rest).1, (split rest).2) := by
  by_cases hrange : ∃ hi tail, rest = '-' :: hi :: tail
  · obtain ⟨hi, tail, rfl⟩ := hrange
    obtain rfl := hrest hi tail rfl
    have hdash : split ('-' :: '-' :: tail) = ([], '-' :: '-' :: tail) := by rw [split]
    rw [hdash, split, if_pos rfl]
    exact hc
  · rw [split]
    · exact hc
    · exact fun hi tail heq => hrange ⟨hi, tail, heq⟩

/-- What items without dashes are written as does not begin with a dash. -/
theorem write_ne_dash (h : ∀ item ∈ items, item.Dashless) (tail : List Char) :
    write items ≠ '-' :: tail := by
  cases items with
  | nil => exact fun heq => by cases heq
  | cons item rest =>
    have hitem := h item List.mem_cons_self
    cases item with
    | single c => exact fun heq => hitem (List.cons.inj heq).1
    | range lo hi => exact fun heq => hitem.1 (List.cons.inj heq).1

/-- **Cutting undoes writing.** -/
theorem split_write (h : ∀ item ∈ items, item.Dashless) : split (write items) = (items, []) := by
  induction items with
  | nil => rfl
  | cons item rest ih =>
    have hrest : ∀ item ∈ rest, item.Dashless := fun other ho => h other (List.mem_cons_of_mem _ ho)
    have hitem := h item List.mem_cons_self
    cases item with
    | single c =>
      have hcut := split_single (c := c) hitem fun hi tail heq =>
        absurd heq (write_ne_dash hrest (hi :: tail))
      rw [ih hrest] at hcut
      exact hcut
    | range lo hi =>
      have hcut := split_range hitem.1 hitem.2 (write rest)
      rw [ih hrest] at hcut
      exact hcut

/-- **Writing undoes cutting**: what is cut off is made of items without dashes, and what is left
over is empty or begins with a dash. -/
theorem eq_of_split (h : split spec = (items, left)) :
    spec = write items ++ left ∧ (∀ item ∈ items, item.Dashless) ∧
      (left = [] ∨ ∃ tail, left = '-' :: tail) := by
  fun_induction split spec generalizing items left with
  | case1 =>
    cases h
    exact ⟨rfl, by simp, .inl rfl⟩
  | case2 rest =>
    cases h
    exact ⟨rfl, by simp, .inr ⟨rest, rfl⟩⟩
  | case3 lo rest hlo =>
    cases h
    refine ⟨rfl, ?_, .inr ⟨_, rfl⟩⟩
    simpa [SpecItem.Dashless] using hlo
  | case4 lo hi rest hlo hhi items left hcut ih =>
    obtain ⟨rfl, hitems, hleft⟩ := ih hcut
    cases h
    refine ⟨rfl, List.forall_mem_cons.2 ⟨?_, hitems⟩, hleft⟩
    exact ⟨fun heq => hlo heq, hhi⟩
  | case5 c rest hdash hrange items left hcut ih =>
    obtain ⟨rfl, hitems, hleft⟩ := ih hcut
    cases h
    exact ⟨rfl, List.forall_mem_cons.2 ⟨fun heq => hdash heq, hitems⟩, hleft⟩

/-- Items without dashes are written in different ways if they are different. -/
theorem write_injective (h : ∀ item ∈ items, item.Dashless) (h' : ∀ item ∈ others, item.Dashless)
    (heq : write items = write others) : items = others := by
  have hcut := split_write h
  rw [heq, split_write h'] at hcut
  exact (Prod.mk.inj hcut).1.symm

/-- **A spec is read as the items that it is made of.** -/
theorem parse_eq_ok_iff : parse spec = .ok items ↔ Valid items ∧ spec = write items := by
  constructor
  · intro h
    unfold parse at h
    split_ifs at h with hempty
    cases hcut : split spec with
    | mk cut left =>
      obtain ⟨hspec, hdashless, -⟩ := eq_of_split hcut
      simp only [hcut] at h
      split_ifs at h with hleft
      split at h
      · rename_i hreversed
        cases h
        rw [List.isEmpty_iff.1 hleft, List.append_nil] at hspec
        refine ⟨⟨?_, hdashless, fun item hitem => ?_⟩, hspec⟩
        · rintro rfl
          exact hempty (by rw [hspec]; rfl)
        · exact SpecItem.reversed?_eq_none_iff.1 (List.findSome?_eq_none_iff.1 hreversed item hitem)
      · cases h
  · rintro ⟨hvalid, rfl⟩
    have hreversed : items.findSome? SpecItem.reversed? = none :=
      List.findSome?_eq_none_iff.2 fun item hitem =>
        SpecItem.reversed?_eq_none_iff.2 (hvalid.inOrder item hitem)
    have hwritten : (write items).isEmpty = false := by
      cases items with
      | nil => exact absurd rfl hvalid.ne_nil
      | cons item rest => cases item <;> rfl
    unfold parse
    rw [hwritten, split_write hvalid.dashless]
    simp only [Bool.false_eq_true, if_false, List.isEmpty_nil, if_true, hreversed]

end Spec

section Sorted

variable {c : Char} {chars : List Char} {sorted : Array Char} {low high : Nat}

theorem mem_dropRepeats : c ∈ dropRepeats chars ↔ c ∈ chars := by
  fun_induction dropRepeats chars with
  | case1 => rfl
  | case2 d => rfl
  | case3 d rest ih => rw [ih, List.mem_cons (b := d) (l := d :: rest), List.mem_cons, or_self_left]
  | case4 d e rest hne ih => rw [List.mem_cons, ih, ← List.mem_cons]

theorem dropRepeats_sublist (chars : List Char) : (dropRepeats chars).Sublist chars := by
  fun_induction dropRepeats chars with
  | case1 => exact .refl _
  | case2 d => exact .refl _
  | case3 d rest ih => exact ih.cons d
  | case4 d e rest hne ih => exact ih.cons_cons d

/-- The characters of a sorted array rise with their places. -/
theorem le_of_sorted (hsorted : sorted.toList.Pairwise (· ≤ ·)) {i j : Nat} {d e : Char}
    (hij : i ≤ j) (hi : sorted[i]? = some d) (hj : sorted[j]? = some e) : d ≤ e := by
  rcases Nat.eq_or_lt_of_le hij with rfl | hlt
  · rw [hi] at hj
    cases hj
    exact le_refl d
  · rw [← Array.getElem?_toList] at hi hj
    obtain ⟨hilt, rfl⟩ := List.getElem?_eq_some_iff.1 hi
    obtain ⟨hjlt, rfl⟩ := List.getElem?_eq_some_iff.1 hj
    exact List.pairwise_iff_getElem.1 hsorted i j hilt hjlt hlt

/-- **Looking up by halving** finds what stands between the two places of a sorted array. -/
theorem searchSorted_iff (hsorted : sorted.toList.Pairwise (· ≤ ·)) (hhigh : high ≤ sorted.size) :
    searchSorted sorted c low high = true ↔
      ∃ place, low ≤ place ∧ place < high ∧ sorted[place]? = some c := by
  fun_induction searchSorted sorted c low high with
  | case1 low high hlt middle hmiddle =>
    rw [Array.getElem?_eq_none_iff] at hmiddle
    omega
  | case2 low high hlt middle hmiddle =>
    exact ⟨fun _ => ⟨middle, by omega, by omega, hmiddle⟩, fun _ => rfl⟩
  | case3 low high hlt middle d hmiddle hne hless ih =>
    -- what stands up to the middle is too small
    rw [ih hhigh]
    refine exists_congr fun place => ⟨fun ⟨hlow, hplace, hc⟩ => ⟨by omega, hplace, hc⟩, ?_⟩
    rintro ⟨hlow, hplace, hc⟩
    refine ⟨Nat.lt_of_not_le fun hle => ?_, hplace, hc⟩
    exact absurd (le_of_sorted hsorted hle hc hmiddle) (not_le_of_gt hless)
  | case4 low high hlt middle d hmiddle hne hless ih =>
    -- what stands from the middle on is too great
    rw [ih (by omega)]
    refine exists_congr fun place => ⟨fun ⟨hlow, hplace, hc⟩ => ⟨hlow, by omega, hc⟩, ?_⟩
    rintro ⟨hlow, hplace, hc⟩
    refine ⟨hlow, Nat.lt_of_not_le fun hle => hne ?_, hc⟩
    exact le_antisymm (le_of_sorted hsorted hle hmiddle hc) (not_lt.1 hless)
  | case5 low high hlt =>
    constructor
    · exact fun h => by cases h
    · rintro ⟨place, hlow, hplace, -⟩
      omega

end Sorted

namespace CharSet

variable {items : List SpecItem} {c : Char}

theorem mem_singlesOf : c ∈ singlesOf items ↔ .single c ∈ items := by
  unfold singlesOf
  rw [List.mem_filterMap]
  constructor
  · rintro ⟨item, hitem, heq⟩
    cases item <;> cases heq
    exact hitem
  · exact fun h => ⟨.single c, h, rfl⟩

theorem mem_rangesOf {lo hi : Char} : (lo, hi) ∈ rangesOf items ↔ .range lo hi ∈ items := by
  unfold rangesOf
  rw [List.mem_filterMap]
  constructor
  · rintro ⟨item, hitem, heq⟩
    cases item <;> cases heq
    exact hitem
  · exact fun h => ⟨.range lo hi, h, rfl⟩

/-- The characters that stand for themselves are found. -/
theorem searchSorted_ofItems (spec : String) (items : List SpecItem) (c : Char) :
    searchSorted (ofItems spec items).singles c 0 (ofItems spec items).singles.size = true ↔
      .single c ∈ items := by
  have hsorted : (ofItems spec items).singles.toList.Pairwise (· ≤ ·) := by
    refine List.Pairwise.sublist (dropRepeats_sublist _) ?_
    have hmerge : (singlesOf items).mergeSort.Pairwise fun a b => decide (a ≤ b) = true :=
      List.pairwise_mergeSort (by simpa using fun a b c => le_trans) (by simpa using le_total) _
    simpa using hmerge
  have hmem : c ∈ (singlesOf items).mergeSort ↔ c ∈ singlesOf items := List.mem_mergeSort
  rw [searchSorted_iff hsorted le_rfl, ← mem_singlesOf, ← hmem, ← mem_dropRepeats,
    List.mem_iff_getElem?]
  refine exists_congr fun place => ⟨fun ⟨_, _, hc⟩ => ?_, fun hc => ⟨Nat.zero_le place, ?_, ?_⟩⟩
  · simpa [ofItems] using hc
  · simpa [ofItems] using (List.getElem?_eq_some_iff.1 hc).1
  · simpa [ofItems] using hc

theorem contains_eq_true_iff {set : CharSet} :
    set.contains c = true ↔ searchSorted set.singles c 0 set.singles.size = true ∨
      ∃ lo hi, (lo, hi) ∈ set.ranges ∧ lo ≤ c ∧ c ≤ hi := by
  simp [contains]

/-- **The members of a set are those of its items.** -/
theorem contains_ofItems (spec : String) (items : List SpecItem) (c : Char) :
    (ofItems spec items).contains c = true ↔ ∃ item ∈ items, item.Holds c := by
  rw [contains_eq_true_iff, searchSorted_ofItems]
  constructor
  · rintro (hsingle | ⟨lo, hi, hrange, hc⟩)
    · exact ⟨.single c, hsingle, rfl⟩
    · exact ⟨.range lo hi, mem_rangesOf.1 hrange, hc⟩
  · rintro ⟨item, hitem, hc⟩
    cases item with
    | single d =>
      cases hc
      exact .inl hitem
    | range lo hi => exact .inr ⟨lo, hi, mem_rangesOf.2 hitem, hc⟩

theorem ofSpec_eq_ok_iff {spec : String} {set : CharSet} :
    ofSpec spec = .ok set ↔
      ∃ items, Spec.Valid items ∧ spec.toList = Spec.write items ∧ set = ofItems spec items := by
  unfold ofSpec
  constructor
  · intro h
    cases hparse : Spec.parse spec.toList with
    | error defect =>
      rw [hparse] at h
      cases h
    | ok items =>
      rw [hparse] at h
      cases h
      obtain ⟨hvalid, hspec⟩ := Spec.parse_eq_ok_iff.1 hparse
      exact ⟨items, hvalid, hspec, rfl⟩
  · rintro ⟨items, hvalid, hspec, rfl⟩
    rw [Spec.parse_eq_ok_iff.2 ⟨hvalid, hspec⟩]
    rfl

/-- **A spec is accepted exactly if it is made of items**: of single characters and of ranges the
right way round, with no dash but those in the ranges. There is only one list of items that it is
made of, and that is what it is read as. The members of the set are those of its items. -/
theorem ofSpec_exact :
    (∀ spec : String, (∃ set, ofSpec spec = .ok set) ↔
        ∃ items, Spec.Valid items ∧ spec.toList = Spec.write items) ∧
      (∀ items, Spec.Valid items → Spec.parse (Spec.write items) = .ok items ∧
        ∀ others, Spec.Valid others → Spec.write others = Spec.write items → others = items) ∧
      ∀ spec set, ofSpec spec = .ok set →
        ∃ items, Spec.Valid items ∧ spec.toList = Spec.write items ∧
          ∀ c, set.contains c = true ↔ ∃ item ∈ items, item.Holds c := by
  refine ⟨fun spec => ⟨?_, ?_⟩, fun items hvalid => ⟨?_, ?_⟩, fun spec set hset => ?_⟩
  · rintro ⟨set, hset⟩
    obtain ⟨items, hvalid, hspec, -⟩ := ofSpec_eq_ok_iff.1 hset
    exact ⟨items, hvalid, hspec⟩
  · rintro ⟨items, hvalid, hspec⟩
    exact ⟨_, ofSpec_eq_ok_iff.2 ⟨items, hvalid, hspec, rfl⟩⟩
  · exact Spec.parse_eq_ok_iff.2 ⟨hvalid, rfl⟩
  · intro others hothers heq
    exact Spec.write_injective hothers.dashless hvalid.dashless heq
  · obtain ⟨items, hvalid, hspec, rfl⟩ := ofSpec_eq_ok_iff.1 hset
    exact ⟨items, hvalid, hspec, contains_ofItems spec items⟩

/-- The items of the characters that identifiers are made of. -/
def identifierItems : List SpecItem :=
  [.range 'a' 'z', .single '$', .single '_', .range 'A' 'Z']

theorem identifiers_ofSpec_exact :
    Spec.Valid identifierItems ∧ "a-z$_A-Z".toList = Spec.write identifierItems ∧
      ∃ set, ofSpec "a-z$_A-Z" = .ok set ∧
        ∀ c, set.contains c = true ↔ ∃ item ∈ identifierItems, item.Holds c := by
  have hvalid : Spec.Valid identifierItems :=
    ⟨by decide, by simp [identifierItems, SpecItem.Dashless],
      by simp [identifierItems, SpecItem.InOrder]⟩
  have hspec : "a-z$_A-Z".toList = Spec.write identifierItems := by decide
  obtain ⟨haccepted, honly, hmembers⟩ := ofSpec_exact
  obtain ⟨set, hset⟩ := (haccepted "a-z$_A-Z").2 ⟨identifierItems, hvalid, hspec⟩
  obtain ⟨items, hitems, hwritten, hcontains⟩ := hmembers _ set hset
  obtain rfl := (honly identifierItems hvalid).2 items hitems (hwritten.symm.trans hspec)
  exact ⟨hvalid, hspec, set, hset, hcontains⟩

end CharSet

end Packrat
