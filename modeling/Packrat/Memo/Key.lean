import Packrat.Arena
import Packrat.Mode

/-!
# Keys of memo tables

Within one text the resolution of a rule depends on the rule, the offset and the mode, and on
nothing else.

* `Memo.Key.order`: keys in order, first by offset.
-/

namespace Packrat.Memo

/-- What the resolution of a rule depends on, within one text. -/
structure Key where
  rule : RuleId
  offset : Nat
  mode : Mode
deriving DecidableEq

namespace Key

/-- The order of keys: by offset, then by rule, then by mode. -/
def order : Key → Key → Ordering :=
  compareLex (compareOn offset) (compareLex (compareOn rule) (compareOn fun key => key.mode.rank))

instance : Std.TransCmp order := inferInstanceAs (Std.TransCmp (compareLex _ _))

theorem eq_of_order_eq {a b : Key} (h : order a b = .eq) : a = b := by
  obtain ⟨rule, offset, mode⟩ := a
  obtain ⟨rule', offset', mode'⟩ := b
  simp only [order, compareLex_eq_eq, compareOn, Nat.compare_eq_eq] at h
  obtain ⟨rfl, rfl, hm⟩ := h
  cases mode <;> cases mode' <;> simp_all [Mode.rank]

instance : Std.LawfulEqCmp order where
  eq_of_compare := eq_of_order_eq

end Key

end Packrat.Memo
