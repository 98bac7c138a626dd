import Packrat.Proofs.LeftRecursion
import Packrat.Proofs.Sessions

/-!
# The nullable nodes are found, and they are the right ones

Every pass but the last finds something new, and there is only so much to be found. What is found
is what matches without taking a character, wherever and in whichever mode: where there is a place
for it, the empty text is one.

* `Session.TakesNothing`: a node matches and takes nothing.
* `Grammar.Built.takesNothing_of_nullable`, `Grammar.Built.nullable_of_takesNothing`: **the
  nullable nodes do so**, and no others.
* `Grammar.Built.nullability_exact`: both, for a built grammar.
-/

namespace Packrat

open Evaluation

/-- A node matches at an offset, and what it takes is nothing. -/
def Session.TakesNothing (session : Session) (id : NodeId) (pos : Nat) (mode : Mode) : Prop :=
  ∃ span next, session.evaluate id pos mode = .ok (.matched span, next) ∧ span.isEmpty = true

namespace Grammar

variable {grammar : Grammar} {text : String} {id : NodeId} {pos : Nat} {mode : Mode}

/-- What a session takes is what a plain evaluation takes. -/
theorem Built.takesNothing_iff (h : grammar.Built) (hid : id.index < grammar.arena.nodes.size)
    (hpos : pos ≤ text.length) :
    (grammar.session text).TakesNothing id pos mode ↔ ∃ farthest,
      (plainNode grammar.arena (.ofString text) mode
        (grammar.arena.depthLimit ((Input.ofString text).length - pos)) id pos).run pos =
          .ok (.ofBounds pos pos, farthest) := by
  rw [← Input.length_ofString] at hpos
  obtain ⟨outcome, next, heval, -, hplain⟩ := (grammar.session_serves text).evaluate h hid pos mode
  obtain ⟨found, farthest, hrun, hfound⟩ := Session.evaluate_plain h hid hpos mode
  rw [hplain] at hfound
  obtain rfl : outcome = (Reached.mk found farthest).report := by cases hfound; rfl
  rw [hrun]
  constructor
  · rintro ⟨span, last, hmatched, hempty⟩
    rw [heval] at hmatched
    cases found with
    | matched taken =>
      cases hmatched
      obtain ⟨hstart, -, -⟩ := evalNode_within hpos hrun
      have hstop : span.start = span.stop := by simpa [Span.isEmpty] using hempty
      obtain ⟨start, stop⟩ := span
      obtain rfl : start = pos := hstart
      obtain rfl : start = stop := hstop
      exact ⟨farthest, rfl⟩
    | noMatch failure => cases hmatched
  · rintro ⟨other, hfound⟩
    cases hfound
    exact ⟨⟨pos, pos⟩, next, heval, Span.isEmpty_empty pos⟩

/-- **Only nullable nodes take nothing.** -/
theorem Built.nullable_of_takesNothing (h : grammar.Built)
    (hid : id.index < grammar.arena.nodes.size) (hpos : pos ≤ text.length)
    (hnothing : (grammar.session text).TakesNothing id pos mode) :
    grammar.arena.nullability.node id = true := by
  obtain ⟨farthest, hrun⟩ := (h.takesNothing_iff hid hpos).1 hnothing
  rw [← Input.length_ofString] at hpos
  exact nullable_of_evalNode grammar.arena.nullability_fixed hpos hrun rfl

/-- **Nullable nodes take nothing** of the empty text, in either mode. -/
theorem Built.takesNothing_of_nullable (h : grammar.Built)
    (hid : id.index < grammar.arena.nodes.size)
    (hnull : grammar.arena.nullability.node id = true) (mode : Mode) :
    (grammar.session "").TakesNothing id 0 mode := by
  refine (h.takesNothing_iff hid (Nat.zero_le _)).2 ?_
  obtain ⟨⟨outcome, farthest⟩, hrun⟩ :=
    h.exists_run_evalNode mode 0 hid (Nat.zero_le _) (Nat.le_refl _)
  rw [matched_of_nullable grammar.arena.nullability_fixed hnull hrun] at hrun
  exact ⟨farthest, hrun⟩

/-- **The nullable nodes of a built grammar are found and are the right ones.** Each of the passes
finds something new, except for the last one, and there are no more of them than nodes and rules,
apart from that one. A node is nullable exactly if there are a text, an offset and a mode where it
matches and takes nothing; and then it does so of the empty text, in either mode. -/
theorem Built.nullability_exact (h : grammar.Built) :
    (∃ passes ≤ grammar.arena.nodes.size + grammar.arena.rules.size,
      grammar.arena.nullability =
        (Nullability.pass grammar.arena)^[passes] (.initial grammar.arena) ∧
      (∀ i < passes, (Nullability.pass grammar.arena)^[i + 1] (.initial grammar.arena) ≠
        (Nullability.pass grammar.arena)^[i] (.initial grammar.arena)) ∧
      (Nullability.pass grammar.arena)^[passes + 1] (.initial grammar.arena) =
        (Nullability.pass grammar.arena)^[passes] (.initial grammar.arena)) ∧
    ∀ id : NodeId, id.index < grammar.arena.nodes.size →
      (grammar.arena.nullability.node id = true ↔ ∃ (text : String) (pos : Nat) (mode : Mode),
        pos ≤ text.length ∧ (grammar.session text).TakesNothing id pos mode) ∧
      (grammar.arena.nullability.node id = true ↔
        (grammar.session "").TakesNothing id 0 .parser) ∧
      (grammar.arena.nullability.node id = true ↔
        (grammar.session "").TakesNothing id 0 .lexer) := by
  refine ⟨?_, fun id hid => ?_⟩
  · obtain ⟨passes, hle, hsettle, hfewer, hlast⟩ :=
      Nullability.settle_eq_iterate grammar.arena (.initial grammar.arena)
    rw [Nullability.unknown_initial] at hle
    refine ⟨passes, hle, hsettle, fun i hi hsame => ?_, hlast⟩
    have hless := hfewer i hi
    rw [hsame] at hless
    exact Nat.lt_irrefl _ hless
  · have hempty (mode : Mode) : grammar.arena.nullability.node id = true ↔
        (grammar.session "").TakesNothing id 0 mode :=
      ⟨fun hnull => h.takesNothing_of_nullable hid hnull mode,
        fun hnothing => h.nullable_of_takesNothing hid (Nat.zero_le _) hnothing⟩
    refine ⟨⟨fun hnull => ?_, ?_⟩, hempty .parser, hempty .lexer⟩
    · exact ⟨"", 0, .lexer, Nat.zero_le _, (hempty .lexer).1 hnull⟩
    · rintro ⟨text, pos, mode, hpos, hnothing⟩
      exact h.nullable_of_takesNothing hid hpos hnothing

/-- The rule of `onlyAs` takes nothing of the empty text, as the end of the text is one of its
alternatives; the sequence that is the other one takes something of every text. -/
theorem onlyAs_nullability_exact :
    onlyAs.Built ∧ (onlyAs.session "").TakesNothing ⟨1, 0⟩ 0 .parser ∧
      ∀ text pos mode, pos ≤ text.length →
        ¬ (onlyAs.session text).TakesNothing ⟨2, 0⟩ pos mode := by
  obtain ⟨-, hnode⟩ := onlyAs_built.nullability_exact
  obtain ⟨-, hrule, -⟩ := hnode ⟨1, 0⟩ (by decide)
  obtain ⟨hsequence, -, -⟩ := hnode ⟨2, 0⟩ (by decide)
  refine ⟨onlyAs_built, hrule.1 (by decide +kernel), fun text pos mode hpos hnothing => ?_⟩
  exact absurd (hsequence.2 ⟨text, pos, mode, hpos, hnothing⟩) (by decide +kernel)

end Grammar

end Packrat
