import Packrat.Proofs.FlattenedArenas
import Packrat.Proofs.TableReading

/-!
# Matching with sequences in one or in two

A sequence in another one is matched at the offset where the parts of the outer one ahead of it end,
as its parts are without it. All that is added is that its failure is noted once more, and that it
lies deeper. So what is matched below some limit with the sequence is matched without it, and this
is shown of any evaluation in which it does not matter how often a failure is noted.

* `LawfulMatching`: evaluations for which it does not.
* `evalSequence_append`, `evalSequence_noteFailure`: sequences in two halves, and with their
  failures noted once more.
* `evalNode_flatten`: **matching with one sequence extends matching with two.**
-/

namespace Packrat

open Evaluation

/-- An evaluation that is given up is given up for good, and that a failure got somewhere needs to
be noted only once. -/
class LawfulMatching (m : Type → Type) [Matching m] : Prop where
  fault_bind {α β : Type} (e : Fault) (f : α → m β) :
    (Matching.fault e >>= f) = (Matching.fault e : m β)
  reach_reach (index : Nat) :
    (Matching.reach index >>= fun _ => Matching.reach index) = (Matching.reach index : m Unit)

instance : LawfulMatching Attempt where
  fault_bind _ _ := rfl
  reach_reach index := by
    funext f
    show (Except.ok ((), max (max f index) index) : Except Fault (Unit × Nat)) = _
    rw [Nat.max_assoc, Nat.max_self]
    rfl

instance : LawfulMatching Memoized where
  fault_bind _ _ := rfl
  reach_reach index := by
    funext progress
    show (Except.ok ((), ⟨max (max progress.farthest index) index, progress.table⟩) :
      Except Fault (Unit × Progress)) = _
    rw [Nat.max_assoc, Nat.max_self]
    rfl

/-- The parts of a sequence are matched in two halves. -/
theorem evalSequence_append {m : Type → Type} [Monad m] [LawfulMonad m]
    {eval : NodeId → Nat → m Outcome} (start middle : Nat) (front back : List NodeId) (pos : Nat) :
    evalSequence eval start (front ++ back) pos = (do
      match ← evalSequence eval middle front pos with
      | .matched span => evalSequence eval start back span.stop
      | .noMatch failure => pure (.noMatch failure)) := by
  induction front generalizing pos with
  | nil => simp [evalSequence]
  | cons child rest ih =>
    simp only [List.cons_append, evalSequence, bind_assoc]
    congr 1
    funext outcome
    cases outcome with
    | matched span => exact ih span.stop
    | noMatch failure => simp

section Lawful

variable {m : Type → Type} [Matching m] [LawfulMonad m] [LawfulMatching m]
  {eval : NodeId → Nat → m Outcome}

/-- To note a failure twice is to note it once. -/
theorem noteFailure_noteFailure (outcome : Outcome) :
    (noteFailure outcome >>= noteFailure : m Outcome) = noteFailure outcome := by
  cases outcome with
  | matched span => exact pure_bind _ _
  | noMatch failure =>
    have hreach := LawfulMatching.reach_reach (m := m) failure.index
    simp only [noteFailure, bind_assoc, pure_bind]
    rw [← bind_assoc, hreach]

theorem evalNode_noteFailure (arena : Arena) (input : Input) (mode : Mode) (depth : Nat)
    (id : NodeId) (pos : Nat) :
    (evalNode arena input mode depth id pos >>= noteFailure : m Outcome) =
      evalNode arena input mode depth id pos := by
  cases depth with
  | zero => exact LawfulMatching.fault_bind _ _
  | succ depth =>
    rw [evalNode, bind_assoc]
    simp only [noteFailure_noteFailure]

/-- Where the failures of parts are noted, those of the sequence are. -/
theorem evalSequence_noteFailure (hnoted : ∀ id pos, (eval id pos >>= noteFailure) = eval id pos)
    (start : Nat) (children : List NodeId) (pos : Nat) :
    (evalSequence eval start children pos >>= noteFailure) =
      evalSequence eval start children pos := by
  induction children generalizing pos with
  | nil => simp [evalSequence, noteFailure]
  | cons child rest ih =>
    simp only [evalSequence]
    rw [← hnoted child pos]
    simp only [bind_assoc]
    congr 1
    funext outcome
    cases outcome with
    | matched span =>
      simp only [noteFailure, pure_bind]
      exact ih span.stop
    | noMatch failure =>
      -- the failure was noted with the part, and is noted again with the sequence
      have hnote := noteFailure_noteFailure (m := m) (.noMatch failure)
      simp only [noteFailure, bind_assoc, pure_bind] at hnote ⊢
      exact hnote

/-- A sequence is matched as its parts are, one limit deeper. -/
theorem evalNode_succ_sequence {arena : Arena} {id : NodeId} {children : List NodeId}
    (hnode : arena.node? id = some (.sequence children)) (input : Input) (mode : Mode)
    (depth pos : Nat) :
    (evalNode arena input mode (depth + 1) id pos : m Outcome) =
      evalSequence (evalNode arena input mode depth) pos children pos := by
  rw [evalNode, matchNode, hnode]
  exact evalSequence_noteFailure (evalNode_noteFailure arena input mode depth) pos children pos

variable {arena : Arena} {input : Input} {mode : Mode}

/-- **Matching with one sequence extends matching with two**, below the same limit or a higher
one. -/
theorem evalNode_flatten (S : Extension m) (nesting : Nesting arena.nodes) {depth depth' : Nat}
    (hle : depth ≤ depth') (id : NodeId) (pos : Nat) :
    S.Rel (evalNode arena input mode depth id pos)
      (evalNode (arena.flatten nesting) input mode depth' id pos) := by
  induction depth using Nat.strong_induction_on generalizing depth' id pos with
  | _ depth ih =>
    obtain _ | depth := depth
    · exact S.gaveUp _ _
    obtain ⟨depth', rfl⟩ : ∃ lower, depth' = lower + 1 := ⟨depth' - 1, by omega⟩
    have hbelow : ∀ lower ≤ depth, ∀ id pos, S.Rel (evalNode arena input mode lower id pos)
        (evalNode (arena.flatten nesting) input mode depth' id pos) :=
      fun lower hlower => ih lower (by omega) (by omega)
    by_cases hplace : id.index = nesting.place
    · have hnested : arena.node? id = some (.sequence (nesting.front ++ nesting.part ::
          nesting.back)) := by rw [Arena.node?, hplace, nesting.outer_eq]
      have hflat : (arena.flatten nesting).node? id = some (.sequence nesting.parts) := by
        rw [Arena.node?, hplace]
        exact nesting.getElem?_flattened_place
      -- the inner sequence is matched as its parts are, if the limit lets it be matched at all
      have hinner : ∀ pos, S.Rel (evalNode arena input mode depth nesting.part pos)
          (evalSequence (evalNode (arena.flatten nesting) input mode depth') pos nesting.inner
            pos) := by
        intro pos
        obtain _ | lower := depth
        · exact S.gaveUp _ _
        · rw [evalNode_succ_sequence nesting.inner_eq]
          exact S.evalSequence (hbelow lower (Nat.le_succ lower)) pos nesting.inner pos
      rw [evalNode_succ_sequence hnested, evalNode_succ_sequence hflat, Nesting.parts,
        List.append_assoc, evalSequence_append pos pos, evalSequence_append pos pos]
      refine S.bind (S.evalSequence (hbelow depth le_rfl) pos nesting.front pos) fun outcome => ?_
      cases outcome with
      | noMatch failure => exact S.pure _
      | matched span =>
        simp only [evalSequence_append pos span.stop]
        refine S.bind (hinner span.stop) fun outcome => ?_
        cases outcome with
        | noMatch failure => exact S.pure _
        | matched span => exact S.evalSequence (hbelow depth le_rfl) pos nesting.back span.stop
    · have hsame : (arena.flatten nesting).node? id = arena.node? id :=
        nesting.getElem?_flattened hplace
      have hmatch : ∀ eval : NodeId → Nat → m Outcome,
          matchNode (arena.flatten nesting) input mode eval id pos =
            matchNode arena input mode eval id pos := by
        intro eval
        unfold matchNode
        rw [hsame]
        rfl
      rw [evalNode, evalNode, hmatch]
      exact S.evalNode_succ (fun id rule pos _ => S.settling ⟨id, pos, mode⟩)
        (hbelow depth le_rfl) id pos

end Lawful

end Packrat
