import Packrat.Evaluation

/-!
# Two readings of one evaluation

An evaluation is written once for all readings, so what relates two of them needs to be shown
only of what it is put together from. A `Simulation` is a relation between computations that is
kept by each of these parts.

* `Simulation.resolve`, `Simulation.evalSequence`: choices and sequences.
* `Simulation.evalNode_succ`, `Simulation.settleRule`: **one step**, given the step before it; how
  rules are settled is left to each use.
* `Extension`: a relation that allows the second of two evaluations to come further than the first;
  so it may with a higher limit on its depth (`Extension.evalNode_mono`).
-/

namespace Packrat

open Evaluation

/-- A relation between two readings that everything but the settling of rules keeps. -/
structure Simulation (m n : Type → Type) [Matching m] [Matching n] where
  Rel : {α : Type} → m α → n α → Prop
  pure : ∀ {α : Type} (a : α), Rel (pure a : m α) (pure a)
  bind : ∀ {α β : Type} {x : m α} {y : n α} {f : α → m β} {g : α → n β}, Rel x y →
    (∀ a, Rel (f a) (g a)) → Rel (x >>= f) (y >>= g)
  fault : ∀ {α : Type} (e : Fault), Rel (Matching.fault e : m α) (Matching.fault e)
  tried : ∀ offset outcome, Rel (Matching.tried offset outcome : m Unit)
    (Matching.tried offset outcome)
  reach : ∀ index, Rel (Matching.reach index : m Unit) (Matching.reach index)

namespace Simulation

variable {m n : Type → Type} [Matching m] [Matching n] (S : Simulation m n)

section Choosing

variable {α : Type} {attempt : α → m Outcome} {attempt' : α → n Outcome}

theorem orderedChoiceFrom (place : Nat) (deepest : NoMatch) {alternatives : List α}
    (h : ∀ alternative ∈ alternatives, S.Rel (attempt alternative) (attempt' alternative)) :
    S.Rel (Packrat.orderedChoiceFrom attempt place deepest alternatives)
      (Packrat.orderedChoiceFrom attempt' place deepest alternatives) := by
  induction alternatives generalizing place deepest with
  | nil => exact S.pure _
  | cons alternative rest ih =>
    refine S.bind (h alternative List.mem_cons_self) fun outcome => ?_
    cases outcome with
    | matched span => exact S.pure _
    | noMatch failure => exact ih _ _ fun a ha => h a (List.mem_cons_of_mem _ ha)

theorem longestMatchFrom (place : Nat) (best? : Option Choice) (deepest : NoMatch)
    {alternatives : List α}
    (h : ∀ alternative ∈ alternatives, S.Rel (attempt alternative) (attempt' alternative)) :
    S.Rel (Packrat.longestMatchFrom attempt place best? deepest alternatives)
      (Packrat.longestMatchFrom attempt' place best? deepest alternatives) := by
  induction alternatives generalizing place best? deepest with
  | nil => exact S.pure _
  | cons alternative rest ih =>
    refine S.bind (h alternative List.mem_cons_self) fun outcome => ?_
    cases outcome with
    | matched span => exact ih _ _ _ fun a ha => h a (List.mem_cons_of_mem _ ha)
    | noMatch failure => exact ih _ _ _ fun a ha => h a (List.mem_cons_of_mem _ ha)

theorem resolve (mode : Mode) (pos : Nat) {alternatives : List α}
    (h : ∀ alternative ∈ alternatives, S.Rel (attempt alternative) (attempt' alternative)) :
    S.Rel (Packrat.resolve mode alternatives pos attempt)
      (Packrat.resolve mode alternatives pos attempt') := by
  cases mode with
  | parser => exact S.orderedChoiceFrom 0 ⟨pos⟩ h
  | lexer => exact S.longestMatchFrom 0 none ⟨pos⟩ h

end Choosing

section Nodes

variable {arena : Arena} {input : Input} {mode : Mode} {eval : NodeId → Nat → m Outcome}
  {eval' : NodeId → Nat → n Outcome}

theorem evalSequence (heval : ∀ id pos, S.Rel (eval id pos) (eval' id pos)) (start : Nat)
    (children : List NodeId) (pos : Nat) :
    S.Rel (Evaluation.evalSequence eval start children pos)
      (Evaluation.evalSequence eval' start children pos) := by
  induction children generalizing pos with
  | nil => exact S.pure _
  | cons child rest ih =>
    refine S.bind (heval child pos) fun outcome => ?_
    cases outcome with
    | matched span => exact ih span.stop
    | noMatch failure => exact S.pure _

theorem noteFailure (outcome : Outcome) :
    S.Rel (Evaluation.noteFailure outcome : m Outcome) (Evaluation.noteFailure outcome) := by
  cases outcome with
  | matched span => exact S.pure _
  | noMatch failure => exact S.bind (S.reach _) fun _ => S.pure _

/-- Rules whose alternatives are chosen alike are settled alike. -/
def Settles (arena : Arena) (mode : Mode) (eval : NodeId → Nat → m Outcome)
    (eval' : NodeId → Nat → n Outcome) : Prop :=
  ∀ id rule pos, arena.rule? id = some rule →
    S.Rel (Packrat.resolve mode rule.alternatives pos (eval · pos))
      (Packrat.resolve mode rule.alternatives pos (eval' · pos)) →
    S.Rel (Matching.settling ⟨id, pos, mode⟩
        (Packrat.resolve mode rule.alternatives pos (eval · pos)))
      (Matching.settling ⟨id, pos, mode⟩
        (Packrat.resolve mode rule.alternatives pos (eval' · pos)))

variable (hsettle : S.Settles arena mode eval eval')
  (heval : ∀ id pos, S.Rel (eval id pos) (eval' id pos))
include hsettle heval

theorem settleRule (id : RuleId) (pos : Nat) :
    S.Rel (Evaluation.settleRule arena mode eval id pos)
      (Evaluation.settleRule arena mode eval' id pos) := by
  unfold Evaluation.settleRule
  cases hrule : arena.rule? id with
  | none => exact S.fault _
  | some rule => exact hsettle id rule pos hrule (S.resolve mode pos fun a _ => heval a pos)

theorem matchNode (id : NodeId) (pos : Nat) :
    S.Rel (Evaluation.matchNode arena input mode eval id pos)
      (Evaluation.matchNode arena input mode eval' id pos) := by
  unfold Evaluation.matchNode
  cases arena.node? id with
  | none => exact S.fault _
  | some node =>
    cases node with
    | primitive p => exact S.bind (S.tried pos _) fun _ => S.pure _
    | sequence children => exact S.evalSequence heval pos children pos
    | rule rule => exact S.bind (S.settleRule hsettle heval rule pos) fun _ => S.pure _

/-- **One step of an evaluation** relates if the step before it does. -/
theorem evalNode_succ (id : NodeId) (pos : Nat) :
    S.Rel (Evaluation.matchNode arena input mode eval id pos >>= Evaluation.noteFailure)
      (Evaluation.matchNode arena input mode eval' id pos >>= Evaluation.noteFailure) :=
  S.bind (S.matchNode hsettle heval id pos) S.noteFailure

end Nodes

end Simulation

/-- A relation between evaluations of which the second comes at least as far as the first. -/
structure Extension (m : Type → Type) [Matching m] extends Simulation m m where
  gaveUp {α : Type} (e : Fault) (y : m α) : Rel (Matching.fault e) y
  settling (key : Memo.Key) {x y : m Resolution} :
    Rel x y → Rel (Matching.settling key x) (Matching.settling key y)

/-- **With a higher limit** an evaluation comes at least as far. -/
theorem Extension.evalNode_mono {m : Type → Type} [Matching m] (S : Extension m) {arena : Arena}
    {input : Input} {mode : Mode} {depth depth' : Nat} (hle : depth ≤ depth') (id : NodeId)
    (pos : Nat) :
    S.Rel (evalNode arena input mode depth id pos) (evalNode arena input mode depth' id pos) := by
  induction depth generalizing depth' id pos with
  | zero => exact S.gaveUp _ _
  | succ depth ih =>
    obtain ⟨depth', rfl⟩ : ∃ lower, depth' = lower + 1 := ⟨depth' - 1, by omega⟩
    exact S.evalNode_succ (fun id rule pos _ => S.settling ⟨id, pos, mode⟩)
      (fun id pos => ih (by omega) id pos) id pos

end Packrat
