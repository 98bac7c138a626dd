import Packrat.Evaluation
import Mathlib.Tactic.Common

/-!
# Runs that end well

A computation put together from two ends well when both do, one after the other.

* `ok_bind`, `bind_eq_ok`: without a state.
* `run_bind_eq_ok`: with a state; `run_bind_eq_error` for one that does not end well.
-/

namespace Packrat

variable {ε σ α β : Type}

theorem ok_bind (a : α) (f : α → Except ε β) : (Except.ok a >>= f) = f a := rfl

theorem bind_eq_ok {x : Except ε α} {f : α → Except ε β} {b : β} :
    (x >>= f) = .ok b ↔ ∃ a, x = .ok a ∧ f a = .ok b := by
  cases x <;> simp [bind, Except.bind]

theorem run_bind_eq_ok {x : StateT σ (Except ε) α} {f : α → StateT σ (Except ε) β} {s : σ}
    {r : β × σ} :
    (x >>= f).run s = .ok r ↔ ∃ a s', x.run s = .ok (a, s') ∧ (f a).run s' = .ok r := by
  rw [StateT.run_bind, bind_eq_ok]
  exact Prod.exists

theorem run_bind_eq_error {x : StateT σ (Except ε) α} {f : α → StateT σ (Except ε) β} {s : σ}
    {e : ε} :
    (x >>= f).run s = .error e ↔
      x.run s = .error e ∨ ∃ a s', x.run s = .ok (a, s') ∧ (f a).run s' = .error e := by
  rw [StateT.run_bind]
  cases x.run s with
  | error e => simp [bind, Except.bind]
  | ok r =>
    obtain ⟨a, s'⟩ := r
    simp [bind, Except.bind]

/-- Where the first of two computations ends well, and the second does from there, both do. -/
theorem exists_run_bind {x : StateT σ (Except ε) α} {f : α → StateT σ (Except ε) β} {a : α}
    {s s' : σ} (hx : x.run s = .ok (a, s')) (hf : ∃ r, (f a).run s' = .ok r) :
    ∃ r, (x >>= f).run s = .ok r := by
  obtain ⟨r, hr⟩ := hf
  exact ⟨r, run_bind_eq_ok.2 ⟨a, s', hx, hr⟩⟩

theorem run_pure_eq_ok {a b : α} {s s' : σ} :
    (pure a : StateT σ (Except ε) α).run s = .ok (b, s') ↔ b = a ∧ s' = s := by
  rw [StateT.run_pure]
  simp [pure, Except.pure, eq_comm]

end Packrat
