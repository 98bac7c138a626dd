import Packrat.Evaluation.Attempt
import Packrat.Proofs.Choice
import Packrat.Proofs.NullableFixpoint
import Packrat.Proofs.PrimitiveMatches
import Packrat.Proofs.Reading

/-!
# Plain evaluations that end

What is known of a plain evaluation that comes to an outcome, whatever the limit on its depth.

* `evalNode_run_eq_ok`: **what one step of it was** (`NodeRun`), by the kind of the node.
* `evalNode_mono`: **a higher limit changes nothing.**
* `evalNode_within`: matches begin at the offset and end in the text, failures are in between.
* `nullable_of_evalNode`: only nullable nodes match without taking a character.
-/

namespace Packrat

open Evaluation

section Sequences

variable {ε σ : Type} {eval : NodeId → Nat → StateT σ (Except ε) Outcome} {start pos : Nat}
  {child : NodeId} {rest : List NodeId} {s s' : σ} {outcome : Outcome}

/-- A run through the parts of a sequence begins with a run of the first; it fails with it, or
goes on behind it. -/
theorem evalSequence_cons_run
    (h : (evalSequence eval start (child :: rest) pos).run s = .ok (outcome, s')) :
    ∃ first t, (eval child pos).run s = .ok (first, t) ∧
      ((∃ span, first = .matched span ∧
          (evalSequence eval start rest span.stop).run t = .ok (outcome, s')) ∨
        ∃ failure, first = .noMatch failure ∧ outcome = .noMatch failure ∧ s' = t) := by
  obtain ⟨first, t, hone, h⟩ := run_bind_eq_ok.1 h
  refine ⟨first, t, hone, ?_⟩
  cases first with
  | matched span => exact Or.inl ⟨span, rfl, h⟩
  | noMatch failure =>
    obtain ⟨rfl, rfl⟩ := run_pure_eq_ok.1 h
    exact Or.inr ⟨failure, rfl, rfl, rfl⟩

end Sequences

variable {arena : Arena} {input : Input} {mode : Mode} {depth depth' pos f f' : Nat} {id : NodeId}
  {outcome : Outcome}

/-- A plain evaluation of a node. -/
abbrev plainNode (arena : Arena) (input : Input) (mode : Mode) (depth : Nat) (id : NodeId)
    (pos : Nat) : Attempt Outcome :=
  evalNode arena input mode depth id pos

/-- The plain choice between the alternatives of a rule. -/
abbrev plainBody (arena : Arena) (input : Input) (mode : Mode) (depth : Nat) (rule : Rule)
    (pos : Nat) : Attempt Resolution :=
  resolve mode rule.alternatives pos (plainNode arena input mode depth · pos)

/-- What is left of the farthest failure when an outcome is noted. -/
def noted (outcome : Outcome) (farthest : Nat) : Nat :=
  match outcome with
  | .matched _ => farthest
  | .noMatch failure => max farthest failure.index

/-- **What one step of a plain evaluation was.** -/
inductive NodeRun (arena : Arena) (input : Input) (mode : Mode) (depth : Nat) (id : NodeId)
    (pos f : Nat) : Outcome → Nat → Prop where
  | primitive (p : Primitive) (hnode : arena.node? id = some (.primitive p)) :
      NodeRun arena input mode depth id pos f (p.attempt input pos) f
  | sequence (children : List NodeId) (hnode : arena.node? id = some (.sequence children))
      (outcome : Outcome) (f' : Nat)
      (hrun : (evalSequence (plainNode arena input mode depth) pos children pos).run f =
        .ok (outcome, f')) :
      NodeRun arena input mode depth id pos f outcome f'
  | rule (rid : RuleId) (rule : Rule) (hnode : arena.node? id = some (.rule rid))
      (hrule : arena.rule? rid = some rule) (resolution : Resolution) (inner : Nat)
      (hrun : (plainBody arena input mode depth rule pos).run pos = .ok (resolution, inner)) :
      NodeRun arena input mode depth id pos f resolution.toOutcome (max f inner)

theorem settle_run_eq_ok {offset : Nat} {body : Attempt Resolution} {resolution : Resolution} :
    (Attempt.settle offset body).run f = .ok (resolution, f') ↔
      ∃ inner, body.run offset = .ok (resolution, inner) ∧ f' = max f inner := by
  simp only [Attempt.settle, StateT.run]
  cases body offset with
  | error e => simp
  | ok r =>
    obtain ⟨found, inner⟩ := r
    simp [eq_comm]

theorem settle_run_eq_error {offset : Nat} {body : Attempt Resolution} {e : Fault} :
    (Attempt.settle offset body).run f = .error e ↔ body.run offset = .error e := by
  simp only [Attempt.settle, StateT.run]
  cases body offset with
  | error e => simp
  | ok r => simp

theorem noteFailure_run (outcome : Outcome) (f : Nat) :
    (noteFailure outcome : Attempt Outcome).run f = .ok (outcome, noted outcome f) := by
  cases outcome <;> rfl

/-- **One step of a plain evaluation that ends.** -/
theorem evalNode_run_eq_ok :
    (plainNode arena input mode (depth + 1) id pos).run f = .ok (outcome, f') ↔
      ∃ inner, NodeRun arena input mode depth id pos f outcome inner ∧
        f' = noted outcome inner := by
  have hstep : plainNode arena input mode (depth + 1) id pos =
      matchNode arena input mode (evalNode arena input mode depth) id pos >>= noteFailure := rfl
  rw [hstep, run_bind_eq_ok]
  constructor
  · rintro ⟨found, inner, hmatch, hnote⟩
    rw [noteFailure_run] at hnote
    cases hnote
    refine ⟨inner, ?_, rfl⟩
    unfold matchNode at hmatch
    split at hmatch
    · cases hmatch
    · rename_i p hnode
      cases hmatch
      exact .primitive p hnode
    · rename_i children hnode
      exact .sequence children hnode _ _ hmatch
    · rename_i rid hnode
      obtain ⟨resolution, g, hsettle, hout⟩ := run_bind_eq_ok.1 hmatch
      obtain ⟨rfl, rfl⟩ := run_pure_eq_ok.1 hout
      unfold settleRule at hsettle
      split at hsettle
      · cases hsettle
      · rename_i rule hrule
        obtain ⟨inner, hbody, rfl⟩ := settle_run_eq_ok.1 hsettle
        exact .rule rid rule hnode hrule resolution inner hbody
  · rintro ⟨inner, hrun, rfl⟩
    refine ⟨outcome, inner, ?_, noteFailure_run outcome inner⟩
    cases hrun with
    | primitive p hnode => simp only [matchNode, hnode]; rfl
    | sequence children hnode _ _ hrun => simp only [matchNode, hnode]; exact hrun
    | rule rid rule hnode hrule resolution g hrun =>
      simp only [matchNode, hnode]
      refine run_bind_eq_ok.2 ⟨resolution, max f g, ?_, rfl⟩
      simp only [settleRule, hrule]
      exact settle_run_eq_ok.2 ⟨g, hrun, rfl⟩

/-- Where the first plain computation ends well so does the second, with the same result. -/
def keepsResults : Simulation Attempt Attempt where
  Rel x y := ∀ f r, x.run f = .ok r → y.run f = .ok r
  pure _ _ _ h := h
  bind hxy hfg f r h := by
    obtain ⟨a, f', hx, hf⟩ := run_bind_eq_ok.1 h
    exact run_bind_eq_ok.2 ⟨a, f', hxy f _ hx, hfg a f' r hf⟩
  fault _ _ _ h := h
  tried _ _ _ _ h := h
  reach _ _ _ h := h

/-- The second of two plain computations ends as the first does, also where the first has a lower
limit. -/
def extendsResults : Extension Attempt where
  toSimulation := keepsResults
  gaveUp _ _ _ _ h := by cases h
  settling key x y hxy f r h := by
    obtain ⟨resolution, f'⟩ := r
    obtain ⟨inner, hrun, rfl⟩ := settle_run_eq_ok.1 h
    exact settle_run_eq_ok.2 ⟨inner, hxy _ _ hrun, rfl⟩

/-- **A higher limit changes nothing** where an evaluation ends. -/
theorem evalNode_mono (hle : depth ≤ depth') (id : NodeId) (pos f : Nat) {r : Outcome × Nat}
    (h : (plainNode arena input mode depth id pos).run f = .ok r) :
    (plainNode arena input mode depth' id pos).run f = .ok r :=
  extendsResults.evalNode_mono hle id pos f r h

/-- A rule is settled in one way, whatever the limit, where it is settled. -/
theorem plainBody_unique {rule : Rule} {r r' : Resolution × Nat}
    (h : (plainBody arena input mode depth rule pos).run f = .ok r)
    (h' : (plainBody arena input mode depth' rule pos).run f = .ok r') : r = r' := by
  have hmono : ∀ {lower higher : Nat} {r : Resolution × Nat}, lower ≤ higher →
      (plainBody arena input mode lower rule pos).run f = .ok r →
        (plainBody arena input mode higher rule pos).run f = .ok r := by
    intro lower higher r hle
    exact keepsResults.resolve mode pos (fun a _ f r => evalNode_mono hle a pos f) f r
  have hmax := hmono (Nat.le_max_left depth depth') h
  rw [hmono (Nat.le_max_right depth depth') h'] at hmax
  cases hmax
  rfl

/-- What can become of a match that began at `start` and has come to `pos`: it ends there or
further on in the input, or fails in between. -/
def Outcome.Within (input : Input) (start pos : Nat) : Outcome → Prop
  | .matched span => span.start = start ∧ pos ≤ span.stop ∧ span.stop ≤ input.length
  | .noMatch failure => pos ≤ failure.index ∧ failure.index ≤ input.length

theorem attempt_within (p : Primitive) (hpos : pos ≤ input.length) :
    (p.attempt input pos).Within input pos pos := by
  unfold Primitive.attempt
  split
  · rename_i haccepts
    exact ⟨rfl, Nat.le_add_right _ _, (Primitive.accepts_iff.1 haccepts).le_length⟩
  · exact ⟨Nat.le_min.2 ⟨Nat.le_refl pos, hpos⟩, Nat.min_le_right pos _⟩

theorem evalSequence_within {children : List NodeId} {start : Nat} (hpos : pos ≤ input.length)
    (heval : ∀ child ∈ children, ∀ pos f outcome f', pos ≤ input.length →
      (plainNode arena input mode depth child pos).run f = .ok (outcome, f') →
        outcome.Within input pos pos)
    (h : (evalSequence (plainNode arena input mode depth) start children pos).run f =
      .ok (outcome, f')) : outcome.Within input start pos := by
  induction children generalizing pos f with
  | nil =>
    obtain ⟨rfl, -⟩ := run_pure_eq_ok.1 h
    exact ⟨rfl, Nat.le_refl pos, hpos⟩
  | cons child rest ih =>
    obtain ⟨first, t, hone, ⟨span, rfl, hrest⟩ | ⟨failure, rfl, rfl, rfl⟩⟩ :=
      evalSequence_cons_run h
    · obtain ⟨-, hle, hstop⟩ := heval child List.mem_cons_self pos f _ t hpos hone
      have := ih hstop (fun c hc => heval c (List.mem_cons_of_mem _ hc)) hrest
      cases outcome with
      | matched other => exact ⟨this.1, Nat.le_trans hle this.2.1, this.2.2⟩
      | noMatch failure => exact ⟨Nat.le_trans hle this.1, this.2⟩
    · exact heval child List.mem_cons_self pos f _ _ hpos hone

/-- **Matches begin at the offset and end in the text**, and failures are in between. -/
theorem evalNode_within (hpos : pos ≤ input.length)
    (h : (plainNode arena input mode depth id pos).run f = .ok (outcome, f')) :
    outcome.Within input pos pos := by
  induction depth generalizing id pos f outcome f' with
  | zero => cases h
  | succ depth ih =>
    obtain ⟨inner, hrun, -⟩ := evalNode_run_eq_ok.1 h
    cases hrun with
    | primitive p hnode => exact attempt_within p hpos
    | sequence children hnode _ _ hrun =>
      exact evalSequence_within hpos (fun child _ pos f outcome f' hpos h => ih hpos h) hrun
    | rule rid rule hnode hrule resolution inner hrun =>
      obtain ⟨outcomes, htried, rfl⟩ := run_resolve_eq_ok.1 hrun
      refine toOutcome_ofOutcomes ⟨Nat.le_refl pos, hpos⟩ ?_
      exact forall_of_run_triedOutcomes (fun _ _ _ _ _ h => ih hpos h) htried

theorem isNullable_of_attempt {p : Primitive} {span : Span}
    (h : p.attempt input pos = .matched span) (hstop : span.stop = pos) : p.isNullable = true := by
  unfold Primitive.attempt at h
  split at h
  · cases h
    have hwidth : p.width = 0 := by
      have : pos + p.width = pos := hstop
      omega
    cases p with
    | literal text => simpa [Primitive.isNullable, Primitive.width] using hwidth
    | eof => rfl
    | any => cases hwidth
    | range chars => cases hwidth
    | set chars => cases hwidth
  · cases h

/-- A sequence that matches and stays where it is has parts that do: the offset between the parts
never falls, so it is the same everywhere. -/
theorem nullable_of_evalSequence {known : Nullability} {span : Span} {children : List NodeId}
    {start : Nat} (hpos : pos ≤ input.length)
    (heval : ∀ child ∈ children, ∀ (pos f : Nat) (span : Span) (f' : Nat), pos ≤ input.length →
      (plainNode arena input mode depth child pos).run f = .ok (.matched span, f') →
        span.stop = pos → known.node child = true)
    (h : (evalSequence (plainNode arena input mode depth) start children pos).run f =
      .ok (.matched span, f')) :
    pos ≤ span.stop ∧ (span.stop = pos → ∀ child ∈ children, known.node child = true) := by
  induction children generalizing pos f with
  | nil =>
    obtain ⟨hspan, -⟩ := run_pure_eq_ok.1 h
    cases hspan
    exact ⟨Nat.le_refl pos, by simp⟩
  | cons child rest ih =>
    obtain ⟨first, t, hone, ⟨other, rfl, hrest⟩ | ⟨failure, -, hfail, -⟩⟩ :=
      evalSequence_cons_run h
    · obtain ⟨-, hle, hother⟩ := evalNode_within hpos hone
      obtain ⟨hstop, hnull⟩ :=
        ih hother (fun c hc => heval c (List.mem_cons_of_mem _ hc)) hrest
      refine ⟨by omega, fun hsame => List.forall_mem_cons.2 ⟨?_, hnull (by omega)⟩⟩
      exact heval child List.mem_cons_self pos f other t hpos hone (by omega)
    · cases hfail

/-- **Only nullable nodes match and stay where they are.** -/
theorem nullable_of_evalNode {known : Nullability} (hfixed : Nullability.Fixed arena known)
    {span : Span} (hpos : pos ≤ input.length)
    (h : (plainNode arena input mode depth id pos).run f = .ok (.matched span, f'))
    (hstop : span.stop = pos) : known.node id = true := by
  induction depth generalizing id pos f span f' with
  | zero => cases h
  | succ depth ih =>
    obtain ⟨inner, hrun, -⟩ := evalNode_run_eq_ok.1 h
    generalize hout : Outcome.matched span = outcome at hrun
    cases hrun with
    | primitive p hnode =>
      exact (hfixed.node id _ hnode).2 (isNullable_of_attempt hout.symm hstop)
    | sequence children hnode _ _ hrun =>
      subst hout
      refine (hfixed.node id _ hnode).2 (List.all_eq_true.2 ?_)
      exact (nullable_of_evalSequence hpos (fun _ _ _ _ _ _ hpos h => ih hpos h) hrun).2 hstop
    | rule rid rule hnode hrule resolution inner hrun =>
      -- the match is that of an alternative, which stays where it is as well
      obtain ⟨outcomes, htried, rfl⟩ := run_resolve_eq_ok.1 hrun
      refine (hfixed.node id _ hnode).2 ((hfixed.rule rid rule hrule).2 (List.any_eq_true.2 ?_))
      have hall := forall_of_run_triedOutcomes (P := fun outcome => ∀ span,
        outcome = .matched span → span.stop = pos →
          ∃ alternative ∈ rule.alternatives, known.node alternative = true) ?_ htried
      · refine toOutcome_ofOutcomes (P := fun outcome => outcome = .matched span → _) ?_ ?_
          hout.symm
        · intro h
          cases h
        · intro outcome hmem hspan
          exact hall outcome hmem span hspan hstop
      · rintro alternative ha s outcome s' hrun other rfl hother
        exact ⟨alternative, ha, ih hpos hrun hother⟩

end Packrat
