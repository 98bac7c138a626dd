import Packrat.Proofs.Tokenizing

/-!
# The farthest failure so far is never asked for

A plain evaluation raises the farthest failure and never looks at it. So it ends in one way,
wherever failures are counted from, and raises the cell to one offset, if it is not behind it.

* `Attempt.Comes`: what a computation comes to, and how far its failures got.
* `Attempt.Steady`: a computation that ends in one way from any cell.
* `evalNode_steady`, `tokensFrom_steady`: **evaluations are steady.**
-/

namespace Packrat

open Evaluation

namespace Attempt

variable {α β : Type} {x : Attempt α} {a : α} {f f' reach : Nat}

/-- The computation comes to `a`, and its failures get to `reach`, from any cell. -/
def Comes (x : Attempt α) (a : α) (reach : Nat) : Prop :=
  ∀ f, x.run f = .ok (a, max f reach)

/-- The computation ends in one way from any cell. -/
def Steady (x : Attempt α) : Prop :=
  (∃ e, ∀ f, x.run f = .error e) ∨ ∃ a reach, x.Comes a reach

theorem Comes.pure (a : α) : Comes (pure a) a 0 := by
  intro f
  show Except.ok (a, f) = _
  rw [Nat.max_zero]

theorem Comes.bind {g : α → Attempt β} {b : β} {reach' : Nat} (hx : x.Comes a reach)
    (hg : (g a).Comes b reach') : (x >>= g).Comes b (max reach reach') := by
  intro f
  rw [← Nat.max_assoc]
  exact run_bind_eq_ok.2 ⟨a, max f reach, hx f, hg _⟩

theorem Comes.settle {body : Attempt Resolution} {resolution : Resolution}
    (h : body.Comes resolution reach) (pos : Nat) :
    (settle pos body).Comes resolution (max pos reach) :=
  fun _ => settle_run_eq_ok.2 ⟨max pos reach, h pos, rfl⟩

/-- What a steady computation comes to from one cell it comes to from any. -/
theorem Steady.comes (hx : x.Steady) (h : x.run f = .ok (a, f')) :
    ∃ reach, x.Comes a reach ∧ f' = max f reach := by
  rcases hx with ⟨e, herror⟩ | ⟨b, reach, hcomes⟩
  · rw [herror f] at h
    cases h
  · rw [hcomes f] at h
    cases h
    exact ⟨reach, hcomes, rfl⟩

theorem Steady.bind {g : α → Attempt β} (hx : x.Steady) (hg : ∀ a, (g a).Steady) :
    (x >>= g).Steady := by
  rcases hx with ⟨e, herror⟩ | ⟨a, reach, hcomes⟩
  · exact .inl ⟨e, fun f => run_bind_eq_error.2 (.inl (herror f))⟩
  · rcases hg a with ⟨e, herror⟩ | ⟨b, reach', hcomes'⟩
    · exact .inl ⟨e, fun f => run_bind_eq_error.2 (.inr ⟨a, _, hcomes f, herror _⟩)⟩
    · exact .inr ⟨b, _, hcomes.bind hcomes'⟩

theorem Steady.settle {body : Attempt Resolution} (h : body.Steady) (pos : Nat) :
    (settle pos body).Steady := by
  rcases h with ⟨e, herror⟩ | ⟨resolution, reach, hcomes⟩
  · refine .inl ⟨e, fun f => ?_⟩
    have herror : body pos = .error e := herror pos
    simp only [Attempt.settle, StateT.run, herror]
  · exact .inr ⟨resolution, _, hcomes.settle pos⟩

/-- Steadiness goes through everything that evaluations are put together from. -/
def steadily : Simulation Attempt Attempt where
  Rel x _ := x.Steady
  pure a := .inr ⟨a, 0, .pure a⟩
  bind hx hg := hx.bind hg
  fault e := .inl ⟨e, fun _ => rfl⟩
  tried _ _ := .inr ⟨(), 0, .pure ()⟩
  reach index := .inr ⟨(), index, fun _ => rfl⟩

end Attempt

open Attempt

variable {arena : Arena} {input : Input} {mode : Mode}

theorem settles_steadily {eval : NodeId → Nat → Attempt Outcome} :
    steadily.Settles arena mode eval eval :=
  fun _ _ pos _ hbody => Steady.settle hbody pos

/-- **A plain evaluation of a node is steady.** -/
theorem evalNode_steady (arena : Arena) (input : Input) (mode : Mode) (depth : Nat) (id : NodeId)
    (pos : Nat) : (plainNode arena input mode depth id pos).Steady := by
  induction depth generalizing id pos with
  | zero => exact steadily.fault _
  | succ depth ih => exact steadily.evalNode_succ settles_steadily ih id pos

theorem settleRule_steady (arena : Arena) (input : Input) (mode : Mode) (depth : Nat) (id : RuleId)
    (pos : Nat) : (settleRule arena mode (plainNode arena input mode depth) id pos).Steady :=
  steadily.settleRule settles_steadily (evalNode_steady arena input mode depth) id pos

/-- **Plain tokenizing is steady.** -/
theorem Tokenizer.tokensFrom_steady (tokenizer : Tokenizer) (input : Input) (pos : Nat) :
    (tokensFrom tokenizer input pos : Attempt (Except TokenizerError (List Token))).Steady := by
  induction hleft : input.length - pos using Nat.strong_induction_on generalizing pos with
  | _ left ih =>
    rw [tokensFrom]
    split
    · refine (settleRule_steady _ input .lexer _ tokenizer.rule pos).bind fun resolution => ?_
      cases resolution with
      | noMatch failure => exact steadily.pure _
      | chosen choice =>
        simp only
        split
        · exact steadily.pure _
        · split
          · exact steadily.fault _
          · exact (ih _ (by omega) choice.span.stop rfl).bind fun rest => steadily.pure _
    · exact steadily.pure _

end Packrat
