import Packrat.Proofs.Auditing
import Packrat.Proofs.Sessions
import Packrat.Session.Audit

/-!
# Sessions under audit

What the calls on a session match, and that a ledger of its table changes nothing.

* `Grammar.target?_eq_some`: **what a call matches.**
* `Grammar.Built.exists_survey`: what a call asks for without a table.
* `Session.call_of_error`, `Session.call_of_length_lt`: calls that leave a session as it is.
* `AuditedSession.session_calls`: **a ledger changes no session.**
-/

namespace Packrat

open Evaluation

variable {grammar : Grammar} {input : Input} {session : Session} {call : Session.Call}
  {target : Target}

/-- **What a call matches**: the root, or the node of a rule, from an offset of the text on. -/
theorem Grammar.target?_eq_some (htarget : grammar.target? input call = some target) :
    target.start ≤ input.length ∧
      (call = .parse target.start target.mode ∧ target.node = grammar.root ∨
        ∃ name, call = .parseRule name target.start target.mode ∧
          grammar.ruleNode? name = some target.node) := by
  cases call with
  | parse start mode =>
    simp only [target?] at htarget
    split_ifs at htarget with hstart
    cases htarget
    exact ⟨Nat.le_of_not_lt hstart, Or.inl ⟨rfl, rfl⟩⟩
  | parseRule name start mode =>
    simp only [target?] at htarget
    cases hname : grammar.ruleNode? name with
    | none =>
      simp only [hname] at htarget
      cases htarget
    | some node =>
      simp only [hname] at htarget
      split_ifs at htarget with hstart
      cases htarget
      exact ⟨Nat.le_of_not_lt hstart, Or.inr ⟨name, rfl, hname⟩⟩
  | clear => cases htarget

/-- A call matches something from the offset that it begins at. -/
theorem Grammar.start?_of_target? (htarget : grammar.target? input call = some target) :
    call.start? = some target.start := by
  obtain ⟨-, ⟨rfl, -⟩ | ⟨name, rfl, -⟩⟩ := target?_eq_some htarget
  · rfl
  · rfl

/-- A call matches something in the mode that it is for. -/
theorem Grammar.mode?_of_target? (htarget : grammar.target? input call = some target) :
    call.mode? = some target.mode := by
  obtain ⟨-, ⟨rfl, -⟩ | ⟨name, rfl, -⟩⟩ := target?_eq_some htarget
  · rfl
  · rfl

/-- A call that begins somewhere is for some mode. -/
theorem Session.Call.exists_mode? {start : Nat} (hstart : call.start? = some start) :
    ∃ mode, call.mode? = some mode := by
  cases call with
  | parse start mode => exact ⟨mode, rfl⟩
  | parseRule name start mode => exact ⟨mode, rfl⟩
  | clear => cases hstart

/-- What a call matches is a node of the grammar. -/
theorem Grammar.Built.node_lt_of_target? (h : grammar.Built)
    (htarget : grammar.target? input call = some target) :
    target.node.index < grammar.arena.nodes.size := by
  obtain ⟨-, ⟨-, hroot⟩ | ⟨name, -, hname⟩⟩ := target?_eq_some htarget
  · rw [hroot]
    exact h.root_lt
  · exact h.ruleNode?_lt hname

/-- **What a call asks for without a table** is settled, as evaluations end. -/
theorem Grammar.Built.exists_survey (h : grammar.Built) (input : Input) (call : Session.Call) :
    ∃ survey, grammar.survey input call = .ok survey := by
  unfold survey
  cases htarget : grammar.target? input call with
  | none => exact ⟨.empty, rfl⟩
  | some target =>
    have hstart := (target?_eq_some htarget).1
    have hnode := h.node_lt_of_target? htarget
    obtain ⟨⟨outcome, f⟩, hrun⟩ :=
      h.exists_run_evalNode target.mode 0 hnode hstart (Nat.le_refl _)
    obtain ⟨survey, hsurvey⟩ := (evalNode_surveyed _ target.node target.start 0 outcome).1
      ⟨f, hrun⟩
    have hsurvey : (Evaluation.node grammar.arena input target.mode target.node target.start :
        Surveyed Outcome) = .ok (outcome, survey) := hsurvey
    exact ⟨survey, by simp only [hsurvey]⟩

/-- A call that matches nothing leaves a session as it is, unless it clears it. -/
theorem Session.call_of_target?_eq_none
    (htarget : session.grammar.target? session.input call = none) (hclear : call ≠ .clear) :
    (session.call call).2 = session := by
  have hbehind : ∀ {id : NodeId} {start : Nat} {mode : Mode}, start > session.input.length →
      (session.keep (session.evaluate id start mode)).2 = session := by
    intro id start mode hstart
    rw [Session.evaluate, if_pos hstart]
    rfl
  cases call with
  | parse start mode =>
    simp only [Grammar.target?] at htarget
    split_ifs at htarget with hstart
    exact hbehind hstart
  | parseRule name start mode =>
    show (session.keep (session.parseRule name start mode)).2 = session
    unfold Session.parseRule
    simp only [Grammar.target?] at htarget
    cases hname : session.grammar.ruleNode? name with
    | none => rfl
    | some node =>
      simp only [hname] at htarget
      split_ifs at htarget with hstart
      exact hbehind hstart
  | clear => exact absurd rfl hclear

/-- Without a table nothing is kept of what a session matches. -/
theorem Session.evaluate_of_table?_eq_none (htable : session.table? = none) (target : Target) :
    (session.keep (session.evaluate target.node target.start target.mode)).2 = session := by
  obtain ⟨grammar, input, table?⟩ := session
  obtain rfl : table? = none := htable
  unfold Session.evaluate
  split_ifs
  · rfl
  · simp only [Evaluation.run]
    cases (Evaluation.node grammar.arena input target.mode target.node target.start :
        Attempt Outcome) target.start <;> rfl

/-- A call that matches something evaluates it. -/
theorem Session.call_of_target?_eq_some
    (htarget : session.grammar.target? session.input call = some target) :
    session.call call = session.keep (session.evaluate target.node target.start target.mode) := by
  obtain ⟨-, ⟨rfl, hroot⟩ | ⟨name, rfl, hname⟩⟩ := Grammar.target?_eq_some htarget
  · rw [hroot]
    rfl
  · show session.keep (session.parseRule name target.start target.mode) = _
    unfold Session.parseRule
    rw [hname]

/-- A call that is answered with an error leaves a session as it is. -/
theorem Session.call_of_error {e : Error} (h : (session.call call).1 = .error e) :
    (session.call call).2 = session := by
  have hkeep : ∀ r, (session.keep r).1 = .error e → (session.keep r).2 = session := by
    intro r h
    cases r with
    | ok next => cases h
    | error e => rfl
  cases call with
  | parse start mode => exact hkeep _ h
  | parseRule name start mode => exact hkeep _ h
  | clear => cases h

/-- A call that begins behind the end of the text leaves a session as it is. -/
theorem Session.call_of_length_lt {start : Nat} (hstart : call.start? = some start)
    (hlt : session.input.length < start) : (session.call call).2 = session := by
  refine Session.call_of_target?_eq_none ?_ ?_
  · cases htarget : session.grammar.target? session.input call with
    | none => rfl
    | some target =>
      have hle := (Grammar.target?_eq_some htarget).1
      have hbegins := Grammar.start?_of_target? htarget
      obtain rfl : target.start = start := Option.some.inj (hbegins.symm.trans hstart)
      omega
  · rintro rfl
    cases hstart

namespace AuditedSession

variable {audited : AuditedSession} {calls : List Session.Call} {table : Memo.Table}

/-- With a ledger a target is matched as it is without one. -/
theorem session_evaluate (htable : audited.session.table? = some table)
    (hstart : target.start ≤ audited.session.input.length) :
    (audited.evaluate target table).session =
      (audited.session.keep
        (audited.session.evaluate target.node target.start target.mode)).2 := by
  obtain ⟨⟨grammar, input, table?⟩, ledger⟩ := audited
  obtain rfl : table? = some table := htable
  have hsame : withoutLedger.Rel
      (Evaluation.node grammar.arena input target.mode target.node target.start)
      (Evaluation.node grammar.arena input target.mode target.node target.start) :=
    evalNode_audited _ target.node target.start
  unfold evaluate Session.evaluate
  rw [if_neg (Nat.not_lt.2 hstart)]
  simp only [Evaluation.run]
  cases haudited : (Evaluation.node grammar.arena input target.mode target.node target.start :
      Audited Outcome).run ⟨⟨target.start, table⟩, ledger⟩ with
  | ok r =>
    obtain ⟨outcome, ⟨progress, ledger'⟩⟩ := r
    have hmemo := (hsame _ outcome progress).2 ⟨ledger', haudited⟩
    simp only [StateT.run] at hmemo
    simp only [hmemo]
    rfl
  | error e =>
    -- were the evaluation to end without the ledger, it would with it
    cases hmemo : (Evaluation.node grammar.arena input target.mode target.node target.start :
        Memoized Outcome) ⟨target.start, table⟩ with
    | ok r =>
      obtain ⟨ledger', hok⟩ := (hsame ⟨⟨target.start, table⟩, ledger⟩ r.1 r.2).1 hmemo
      rw [haudited] at hok
      cases hok
    | error e => rfl

/-- With a ledger a call does what it does without one. -/
theorem session_call (audited : AuditedSession) (call : Session.Call) :
    (audited.call call).session = (audited.session.call call).2 := by
  by_cases hclear : call = .clear
  · subst hclear
    rfl
  unfold AuditedSession.call
  cases htarget : audited.session.grammar.target? audited.session.input call with
  | none =>
    simp only [if_neg hclear]
    rw [Session.call_of_target?_eq_none htarget hclear]
  | some target =>
    rw [Session.call_of_target?_eq_some htarget]
    cases htable : audited.session.table? with
    | none =>
      simp only [if_neg hclear]
      exact (Session.evaluate_of_table?_eq_none htable target).symm
    | some table => exact session_evaluate htable (Grammar.target?_eq_some htarget).1

/-- **A ledger changes no session.** -/
theorem session_calls (audited : AuditedSession) (calls : List Session.Call) :
    (audited.calls calls).session = (audited.session.calls calls).2 := by
  induction calls generalizing audited with
  | nil => rfl
  | cons call rest ih =>
    show ((audited.call call).calls rest).session = ((audited.session.call call).2.calls rest).2
    rw [ih, session_call]

theorem calls_append_singleton (audited : AuditedSession) (calls : List Session.Call)
    (call : Session.Call) : audited.calls (calls ++ [call]) = (audited.calls calls).call call := by
  unfold AuditedSession.calls
  rw [List.foldl_append]
  rfl

end AuditedSession

end Packrat
