import Packrat.Proofs.ReorderedArenas
import Packrat.Proofs.Tallying

/-!
# Matching with alternatives in another order

In lexer mode every alternative is tried, so what an evaluation adds up to does not depend on the
order of alternatives. By its tally neither does what it comes to, nor what it asks for.

* `ByPlace`: evaluations that go by the places of nodes; `talliedBody_of` opens a body for them.
* `Arena.Reordered.talliedNode_eq`: **evaluations add up to the same.**
* `Arena.Reordered.run_evalNode`: plain evaluations come to the same.
* `Arena.Reordered.surveyedNode_perm`, `perm_of_surveys`: what is asked for is the same, up to its
  order.
-/

namespace Packrat

open Evaluation

/-- Evaluations that go by the places of nodes, in the same way. -/
def ByPlace {m : Type → Type} (eval eval' : NodeId → Nat → m Outcome) : Prop :=
  ∀ {id id' : NodeId}, id.index = id'.index → ∀ pos, eval id pos = eval' id' pos

section Places

/-- A sequence goes by the places of its parts. -/
theorem ByPlace.evalSequence {m : Type → Type} [Monad m] {eval eval' : NodeId → Nat → m Outcome}
    (heval : ByPlace eval eval') {children children' : List NodeId}
    (h : children.map NodeId.index = children'.map NodeId.index) (start pos : Nat) :
    Evaluation.evalSequence eval start children pos =
      Evaluation.evalSequence eval' start children' pos := by
  induction children generalizing children' pos with
  | nil =>
    obtain rfl : children' = [] := List.map_eq_nil_iff.1 h.symm
    rfl
  | cons child rest ih =>
    cases children' with
    | nil => cases h
    | cons child' rest' =>
      obtain ⟨hchild, hrest⟩ := List.cons.inj h
      rw [Evaluation.evalSequence, Evaluation.evalSequence, heval hchild]
      congr 1
      funext outcome
      cases outcome with
      | matched span => exact ih hrest span.stop
      | noMatch failure => rfl

theorem triedOutcomes_map {m : Type → Type} [Monad m] {α β : Type} (mode : Mode)
    (attempt : β → m Outcome) (f : α → β) (alternatives : List α) :
    triedOutcomes mode attempt (alternatives.map f) =
      triedOutcomes mode (fun alternative => attempt (f alternative)) alternatives := by
  induction alternatives generalizing mode with
  | nil => rfl
  | cons alternative rest ih => simp only [List.map_cons, triedOutcomes, ih]

/-- A choice goes by the places of the alternatives. -/
theorem ByPlace.resolve {m : Type → Type} [Monad m] [LawfulMonad m]
    {eval eval' : NodeId → Nat → m Outcome} (heval : ByPlace eval eval') (mode : Mode)
    (alternatives : List NodeId) (pos : Nat) :
    Packrat.resolve mode alternatives pos (eval · pos) =
      Packrat.resolve mode (alternatives.map NodeId.index) pos fun index => eval' ⟨index, 0⟩ pos := by
  have hplace : ∀ id : NodeId, eval id pos = eval' ⟨id.index, 0⟩ pos :=
    fun id => @heval id ⟨id.index, 0⟩ rfl pos
  rw [resolve_eq, resolve_eq, triedOutcomes_map]
  simp only [hplace]

end Places

theorem toOutcome_settle {key : Memo.Key} {body body' : Tallied Resolution}
    (h : Resolution.toOutcome <$> body = Resolution.toOutcome <$> body') :
    Resolution.toOutcome <$> Tallied.settle key body =
      Resolution.toOutcome <$> Tallied.settle key body' := by
  rcases Tallied.map_eq_map h with ⟨rfl, rfl⟩ | ⟨resolution, resolution', t, rfl, rfl, houtcome⟩
  · rfl
  · simp only [Tallied.settle, Tallied.map_done, houtcome]

namespace Arena.Reordered

variable {arena arena' : Arena} {input : Input} {depth depth' pos f f' : Nat} {id id' : NodeId}

section Step

variable (heval : ByPlace (talliedNode arena input .lexer depth)
  (talliedNode arena' input .lexer depth))
include heval

/-- **A choice adds up to the same with the alternatives in any order**, when the alternatives do. -/
theorem talliedBody_of {rule rule' : Rule} (hrule : rule.Reordered rule') (pos : Nat) :
    Resolution.toOutcome <$> talliedBody arena input .lexer depth rule pos =
      Resolution.toOutcome <$> talliedBody arena' input .lexer depth rule' pos := by
  have hsame : ByPlace (talliedNode arena' input .lexer depth)
      (talliedNode arena' input .lexer depth) := by
    intro id id' hplace pos
    rw [← heval (rfl : id.index = id.index), heval hplace]
  rw [talliedBody, talliedBody, heval.resolve, hsame.resolve]
  exact resolve_perm hrule.alternatives fun index _ outcome t hdone =>
    talliedNode_ordered ((heval rfl pos).trans hdone)

theorem settleRule_of (h : arena.Reordered arena') (rid : RuleId) (pos : Nat) :
    Resolution.toOutcome <$> settleRule arena .lexer (talliedNode arena input .lexer depth) rid
        pos =
      Resolution.toOutcome <$> settleRule arena' .lexer (talliedNode arena' input .lexer depth) rid
        pos := by
  unfold settleRule
  rcases rel_cases (h.rel_rule? rid) with
    ⟨hnone, hnone'⟩ | ⟨rule, rule', hsome, hsome', hrule⟩
  · rw [hnone, hnone']
  · rw [hsome, hsome']
    exact toOutcome_settle (talliedBody_of heval hrule pos)

end Step

/-- **Evaluations in lexer mode add up to the same**, whatever the order of alternatives. -/
theorem talliedNode_eq (h : arena.Reordered arena') (depth : Nat) :
    ByPlace (talliedNode arena input .lexer depth) (talliedNode arena' input .lexer depth) := by
  intro id id' hplace pos
  induction depth generalizing id id' pos with
  | zero => rfl
  | succ depth ih =>
    have heval : ByPlace (talliedNode arena input .lexer depth)
        (talliedNode arena' input .lexer depth) := fun hplace pos => ih hplace pos
    rw [talliedNode, talliedNode, evalNode_succ, evalNode_succ]
    congr 1
    unfold matchNode Arena.node?
    rw [← hplace]
    rcases rel_cases (h.rel_node? id.index) with
      ⟨hnone, hnone'⟩ | ⟨node, node', hsome, hsome', halike⟩
    · rw [hnone, hnone']
    · rw [hsome, hsome']
      cases halike with
      | primitive p => rfl
      | sequence places_eq => exact heval.evalSequence places_eq pos pos
      | rule rid =>
        simp only [← map_eq_pure_bind]
        exact settleRule_of heval h rid pos

theorem depthLimit_eq (h : arena.Reordered arena') : arena.depthLimit = arena'.depthLimit := by
  funext remaining
  rw [depthLimit, depthLimit, h.nodes_size, h.rules_size]

/-- **Plain evaluations come to the same**, and their failures get as far. -/
theorem run_evalNode (h : arena.Reordered arena') (hplace : id.index = id'.index)
    {outcome : Outcome}
    (hrun : (plainNode arena input .lexer depth id pos).run f = .ok (outcome, f')) :
    (plainNode arena' input .lexer depth id' pos).run f = .ok (outcome, f') := by
  have hsame : (fun outcome => outcome) <$> talliedNode arena input .lexer depth id pos =
      (fun outcome => outcome) <$> talliedNode arena' input .lexer depth id' pos := by
    rw [h.talliedNode_eq depth hplace pos]
  obtain ⟨outcome', hrun', rfl⟩ :=
    run_of_comesTo (evalNode_comesTo depth id pos) (evalNode_comesTo depth id' pos) hsame hrun
  exact hrun'

/-- **Plainly, rules are settled with the same outcome**, whichever alternative it is that of. -/
theorem run_rule (h : arena.Reordered arena') {rid : RuleId} {resolution : Resolution}
    (hrun : (Evaluation.rule arena input .lexer rid pos : Attempt Resolution).run f =
      .ok (resolution, f')) :
    ∃ resolution', (Evaluation.rule arena' input .lexer rid pos : Attempt Resolution).run f =
        .ok (resolution', f') ∧ resolution'.toOutcome = resolution.toOutcome := by
  unfold Evaluation.rule at hrun ⊢
  rw [← h.depthLimit_eq]
  generalize arena.depthLimit (input.length - pos) = depth at hrun ⊢
  have hsame : Resolution.toOutcome <$> settleRule arena .lexer
        (talliedNode arena input .lexer depth) rid pos =
      Resolution.toOutcome <$> settleRule arena' .lexer
        (talliedNode arena' input .lexer depth) rid pos :=
    settleRule_of (h.talliedNode_eq depth) h rid pos
  exact run_of_comesTo (comesTo.settleRule settles_comesTo (evalNode_comesTo depth) rid pos)
    (comesTo.settleRule settles_comesTo (evalNode_comesTo depth) rid pos) hsame hrun

/-- **Surveys list the same keys**, in whatever order. -/
theorem surveyedNode_perm (h : arena.Reordered arena') (hplace : id.index = id'.index)
    {outcome : Outcome} {survey : Survey}
    (hok : surveyedNode arena input .lexer depth id pos = .ok (outcome, survey)) :
    ∃ survey', surveyedNode arena' input .lexer depth id' pos = .ok (outcome, survey') ∧
      survey.Perm survey' := by
  have hsame : (fun outcome => outcome) <$> talliedNode arena input .lexer depth id pos =
      (fun outcome => outcome) <$> talliedNode arena' input .lexer depth id' pos := by
    rw [h.talliedNode_eq depth hplace pos]
  obtain ⟨outcome', survey', hok', rfl, hperm⟩ :=
    perm_of_surveysTo (evalNode_surveysTo depth id pos) (evalNode_surveysTo depth id' pos) hsame hok
  exact ⟨survey', hok', hperm⟩

/-- **A key has surveys that list the same keys** in both arenas. -/
theorem perm_of_surveys (h : arena.Reordered arena') {key : Memo.Key} (hmode : key.mode = .lexer)
    {resolution resolution' : Resolution} {survey survey' : Survey}
    (hsurvey : arena.Surveys input key resolution survey)
    (hsurvey' : arena'.Surveys input key resolution' survey') : survey.Perm survey' := by
  obtain ⟨rule, depth, hrule, hbody⟩ := hsurvey
  obtain ⟨rule', depth', hrule', hbody'⟩ := hsurvey'
  rcases rel_cases (h.rel_rule? key.rule) with
    ⟨hnone, -⟩ | ⟨_, _, hsome, hsome', hreordered⟩
  · rw [hrule] at hnone
    cases hnone
  rw [hrule] at hsome
  rw [hrule'] at hsome'
  cases hsome
  cases hsome'
  rw [hmode] at hbody hbody'
  have hbody := surveyedBody_mono (Nat.le_max_left depth depth') rule key.offset _ hbody
  have hbody' := surveyedBody_mono (Nat.le_max_right depth depth') rule' key.offset _ hbody'
  generalize max depth depth' = depth at hbody hbody'
  obtain ⟨resolution'', survey'', hok', -, hperm⟩ := perm_of_surveysTo
    (surveyedBody_surveysTo depth rule key.offset) (surveyedBody_surveysTo depth rule' key.offset)
    (talliedBody_of (h.talliedNode_eq depth) hreordered key.offset) hbody
  have hsame := hbody'.symm.trans hok'
  cases hsame
  exact hperm

end Arena.Reordered

end Packrat
