import Packrat.Proofs.CallOrder
import Packrat.Proofs.ReorderedMatching

/-!
# Sessions with alternatives in another order

Calls for lexer mode are answered alike whatever the order of alternatives. They ask for the same
rules, so the same keys are entered into the tables of sessions, and as many of them found.

* `Grammar.Reordered.evaluate`, `calls_answers`: **answers of sessions** are the same.
* `Grammar.Reordered.survey_perm`: a call asks for the same keys.
* `Kept.mem_reordered`, `Kept.hits_reordered`: **the same calls** leave tables with the same keys,
  that were hit equally often.
-/

namespace Packrat

open Evaluation

namespace Grammar.Reordered

variable {grammar grammar' : Grammar} {input : Input} {id id' : NodeId} {call : Session.Call}

/-- Names lead to nodes at the same places. -/
theorem rel_ruleNode? (hre : grammar.Reordered grammar') (h : grammar.Built) (h' : grammar'.Built)
    (name : String) :
    Option.Rel (fun id id' => id.index = id'.index) (grammar.ruleNode? name)
      (grammar'.ruleNode? name) := by
  unfold ruleNode?
  rw [hre.arena.ruleNamed?_eq h.wellFormed h'.wellFormed]
  cases grammar'.arena.ruleNamed? name with
  | none => exact .none
  | some rid =>
    show Option.Rel _ (grammar.arena.rule? rid >>= fun rule => some rule.node)
      (grammar'.arena.rule? rid >>= fun rule => some rule.node)
    rcases rel_cases (hre.arena.rel_rule? rid) with
      ⟨hnone, hnone'⟩ | ⟨rule, rule', hsome, hsome', hrule⟩
    · rw [hnone, hnone']
      exact .none
    · rw [hsome, hsome']
      exact .some hrule.place_eq

section Matching

variable (hre : grammar.Reordered grammar') (h : grammar.Built) (h' : grammar'.Built)
include hre h h'

/-- **Matches in lexer mode are the same**, without tables. -/
theorem evaluate_plain (hplace : id.index = id'.index) (hid : id.index < grammar.arena.nodes.size)
    (start : Nat) :
    ∃ outcome,
      (Session.mk grammar input none).evaluate id start .lexer =
        .ok (outcome, ⟨grammar, input, none⟩) ∧
      (Session.mk grammar' input none).evaluate id' start .lexer =
        .ok (outcome, ⟨grammar', input, none⟩) := by
  by_cases hstart : start ≤ input.length
  · have hid' : id'.index < grammar'.arena.nodes.size := by
      rw [← hplace, ← hre.arena.nodes_size]
      exact hid
    obtain ⟨outcome, farthest, hrun, hplain⟩ :=
      Session.evaluate_plain h hid hstart .lexer
    obtain ⟨outcome', farthest', hrun', hplain'⟩ :=
      Session.evaluate_plain h' hid' hstart .lexer
    have hsame := hre.arena.run_evalNode hplace hrun
    rw [hre.arena.depthLimit_eq, hrun'] at hsame
    cases hsame
    exact ⟨_, hplain, hplain'⟩
  · refine ⟨.noMatchAt input.length, ?_, ?_⟩
    · rw [Session.evaluate, if_pos (by simpa using hstart)]
    · rw [Session.evaluate, if_pos (by simpa using hstart)]

section Sessions

variable {session session' : Session} (hs : session.Serves grammar input)
  (hs' : session'.Serves grammar' input)
include hs hs'

/-- **So they are in sessions**, whatever was called before. -/
theorem evaluate (hplace : id.index = id'.index) (hid : id.index < grammar.arena.nodes.size)
    (start : Nat) :
    ∃ outcome next next', session.evaluate id start .lexer = .ok (outcome, next) ∧
      session'.evaluate id' start .lexer = .ok (outcome, next') := by
  have hid' : id'.index < grammar'.arena.nodes.size := by
    rw [← hplace, ← hre.arena.nodes_size]
    exact hid
  obtain ⟨outcome, hplain, hplain'⟩ := hre.evaluate_plain h h' hplace hid start
  obtain ⟨next, heval⟩ := hs.evaluate_of_plain h hid hplain
  obtain ⟨next', heval'⟩ := hs'.evaluate_of_plain h' hid' hplain'
  exact ⟨outcome, next, next', heval, heval'⟩

theorem parse (start : Nat) :
    ∃ outcome next next', session.parse start .lexer = .ok (outcome, next) ∧
      session'.parse start .lexer = .ok (outcome, next') := by
  unfold Session.parse
  rw [hs.root_eq, hs'.root_eq]
  exact hre.evaluate h h' hs hs' hre.root_eq h.root_lt start

theorem parseRule (name : String) (start : Nat) :
    if (grammar.ruleNode? name).isSome then
      ∃ outcome next next', session.parseRule name start .lexer = .ok (outcome, next) ∧
        session'.parseRule name start .lexer = .ok (outcome, next')
    else session.parseRule name start .lexer = .error (.unknownRule name) ∧
      session'.parseRule name start .lexer = .error (.unknownRule name) := by
  rcases rel_cases (hre.rel_ruleNode? h h' name) with
    ⟨hnone, hnone'⟩ | ⟨id, id', hsome, hsome', hplace⟩
  · rw [if_neg (by simp [hnone])]
    exact ⟨hs.parseRule_of_none hnone start .lexer, hs'.parseRule_of_none hnone' start .lexer⟩
  · rw [if_pos (by simp [hsome])]
    unfold Session.parseRule
    rw [Session.ruleNode?_congr hs.arena_eq, Session.ruleNode?_congr hs'.arena_eq, hsome, hsome']
    exact hre.evaluate h h' hs hs' hplace (h.ruleNode?_lt hsome) start

/-- A call is answered alike, unless it is for parser mode. -/
theorem call_answer (hmode : call.mode? ≠ some .parser) :
    (session.call call).1 = (session'.call call).1 := by
  cases call with
  | parse start mode =>
    cases mode with
    | parser => exact absurd rfl hmode
    | lexer =>
      obtain ⟨outcome, next, next', hparse, hparse'⟩ := hre.parse h h' hs hs' start
      rw [Session.call, Session.call, hparse, hparse']
      rfl
  | parseRule name start mode =>
    cases mode with
    | parser => exact absurd rfl hmode
    | lexer =>
      have hrule := hre.parseRule h h' hs hs' name start
      rw [Session.call, Session.call]
      split at hrule
      · obtain ⟨outcome, next, next', hparse, hparse'⟩ := hrule
        rw [hparse, hparse']
        rfl
      · rw [hrule.1, hrule.2]
        rfl
  | clear => rfl

end Sessions

/-- **So are any calls.** -/
theorem calls_answers {session session' : Session} {calls : List Session.Call}
    (hs : session.Serves grammar input) (hs' : session'.Serves grammar' input)
    (hmodes : ∀ call ∈ calls, Session.Call.mode? call ≠ some .parser) :
    (session.calls calls).1 = (session'.calls calls).1 := by
  induction calls generalizing session session' with
  | nil => rfl
  | cons call rest ih =>
    obtain ⟨hmode, hrest⟩ := List.forall_mem_cons.1 hmodes
    have hanswer := hre.call_answer h h' hs hs' hmode
    have hanswers := ih (hs.call h call).2.2 (hs'.call h' call).2.2 hrest
    show (session.call call).1 :: ((session.call call).2.calls rest).1 =
      (session'.call call).1 :: ((session'.call call).2.calls rest).1
    rw [hanswer, hanswers]

end Matching

section Accounting

variable (hre : grammar.Reordered grammar') (h : grammar.Built) (h' : grammar'.Built)
include hre h h'

/-- What a call matches stands at the same place. -/
theorem rel_target? (input : Input) (call : Session.Call) :
    Option.Rel (fun target target' => target.node.index = target'.node.index ∧
        target.start = target'.start ∧ target.mode = target'.mode)
      (grammar.target? input call) (grammar'.target? input call) := by
  cases call with
  | parse start mode =>
    simp only [target?]
    split
    · exact .none
    · exact .some ⟨hre.root_eq, rfl, rfl⟩
  | parseRule name start mode =>
    simp only [target?]
    rcases rel_cases (hre.rel_ruleNode? h h' name) with
      ⟨hnone, hnone'⟩ | ⟨id, id', hsome, hsome', hplace⟩
    · rw [hnone, hnone']
      exact .none
    · rw [hsome, hsome']
      simp only
      split
      · exact .none
      · exact .some ⟨hplace, rfl, rfl⟩
  | clear => exact .none

/-- **A call asks for the same keys**, unless it is for parser mode. -/
theorem survey_perm (hmode : call.mode? ≠ some .parser) {survey : Survey}
    (hsurvey : grammar.survey input call = .ok survey) :
    ∃ survey', grammar'.survey input call = .ok survey' ∧ survey.Perm survey' := by
  unfold Grammar.survey at hsurvey ⊢
  rcases rel_cases (hre.rel_target? h h' input call) with
    ⟨hnone, hnone'⟩ | ⟨target, target', hsome, hsome', hplace, hstart, hmodes⟩
  · rw [hnone] at hsurvey
    rw [hnone']
    cases hsurvey
    exact ⟨.empty, rfl, .refl _, .refl _⟩
  · have hlexer : target.mode = .lexer := by
      rw [mode?_of_target? hsome] at hmode
      cases hmode' : target.mode with
      | parser => exact absurd (congrArg some hmode') hmode
      | lexer => rfl
    rw [hsome] at hsurvey
    rw [hsome']
    simp only [← hmodes, ← hstart, hlexer] at hsurvey ⊢
    split at hsurvey
    · cases hsurvey
    · rename_i outcome asked hnode
      cases hsurvey
      obtain ⟨survey', hnode', hperm⟩ := hre.arena.surveyedNode_perm hplace hnode
      rw [hre.arena.depthLimit_eq] at hnode'
      refine ⟨survey', ?_, hperm⟩
      have hnode' : (Evaluation.node grammar'.arena input .lexer target'.node target.start :
        Surveyed Outcome) = .ok (outcome, survey') := hnode'
      simp only [hnode']

end Accounting

end Grammar.Reordered

section Modes

variable {grammar : Grammar} {input : Input} {call : Session.Call}

/-- The keys that a call asks for are for lexer mode, unless the call is for parser mode. -/
theorem Grammar.mode_eq_of_survey (hmode : call.mode? ≠ some .parser) {survey : Survey}
    (hsurvey : grammar.survey input call = .ok survey) {key : Memo.Key} (hkey : key ∈ survey.all) :
    key.mode = .lexer := by
  cases call with
  | parse start mode =>
    cases mode with
    | parser => exact absurd rfl hmode
    | lexer => exact (from_of_survey hsurvey rfl rfl key hkey).mode_eq
  | parseRule name start mode =>
    cases mode with
    | parser => exact absurd rfl hmode
    | lexer => exact (from_of_survey hsurvey rfl rfl key hkey).mode_eq
  | clear =>
    cases hsurvey
    cases hkey

end Modes

namespace AuditedSession

variable {grammar grammar' : Grammar} {input : Input} {calls : List Session.Call}
  {audited audited' : AuditedSession} {table table' : Memo.Table}

section Reordered

variable (hre : grammar.Reordered grammar') (h : grammar.Built) (h' : grammar'.Built)
  (hmodes : ∀ call ∈ calls, Session.Call.mode? call ≠ some .parser)
include hre h h' hmodes

/-- Calls ask for equally many rules themselves. -/
theorem sum_asked_reordered {asked asked' : Session.Call → Nat}
    (hasked : CountsAsked grammar input asked) (hasked' : CountsAsked grammar' input asked') :
    (calls.map asked).sum = (calls.map asked').sum := by
  refine congrArg List.sum (List.map_congr_left fun call hcall => ?_)
  obtain ⟨survey, hsurvey⟩ := h.exists_survey input call
  obtain ⟨survey', hsurvey', hperm⟩ := hre.survey_perm h h' (hmodes call hcall) hsurvey
  rw [hasked call survey hsurvey, hasked' call survey' hsurvey', hperm.direct.length_eq]

variable (hkept : Kept grammar input calls audited table)
  (hkept' : Kept grammar' input calls audited' table')
include hkept hkept'

/-- **The same calls enter the same keys**, with alternatives in any order. -/
theorem Kept.mem_reordered (key : Memo.Key) : key ∈ table.entries ↔ key ∈ table'.entries := by
  rw [hkept.mem_iff, hkept'.mem_iff]
  refine exists_congr fun call => and_congr_right fun hcall => ?_
  obtain ⟨survey, hsurvey⟩ := h.exists_survey input call
  obtain ⟨survey', hsurvey', hperm⟩ := hre.survey_perm h h' (hmodes call hcall) hsurvey
  simp only [hsurvey, hsurvey', Except.ok.injEq, exists_eq_left']
  exact hperm.all.mem_iff

/-- The rules that were settled asked for equally many others. -/
theorem Kept.lookups_reordered {lookups lookups' : Memo.Key → Nat}
    (hlookups : grammar.arena.CountsLookups input lookups)
    (hlookups' : grammar'.arena.CountsLookups input lookups') :
    audited.ledger.lookups lookups = audited'.ledger.lookups lookups' := by
  have hmem := Kept.mem_reordered hre h h' hmodes hkept hkept'
  have hmisses := hkept.inOrder.perm hkept'.inOrder hmem
  unfold Memo.Ledger.lookups
  rw [(hmisses.map lookups).sum_nat]
  refine congrArg List.sum (List.map_congr_left fun key hkey => ?_)
  have hin' : key ∈ table'.entries := (hkept'.inOrder.mem_iff key).2 hkey
  have hin : key ∈ table.entries := (hmem key).2 hin'
  -- the key is one that a call asked for, so it is for lexer mode
  have hlexer : key.mode = .lexer := by
    obtain ⟨call, hcall, survey, hsurvey, hasked⟩ := (hkept.mem_iff key).1 hin
    exact Grammar.mode_eq_of_survey (hmodes call hcall) hsurvey hasked
  obtain ⟨resolution, survey, hsurvey⟩ := hkept.inOrder.exists_surveys hin
  obtain ⟨resolution', survey', hsurvey'⟩ := hkept'.inOrder.exists_surveys hin'
  have hperm := hre.arena.perm_of_surveys hlexer hsurvey hsurvey'
  rw [hlookups key resolution survey hsurvey, hlookups' key resolution' survey' hsurvey',
    hperm.direct.length_eq]

/-- **As many of the rules that were asked for were found.** -/
theorem Kept.hits_reordered : table.hits = table'.hits := by
  obtain ⟨asked, hasked⟩ := exists_asked h input
  obtain ⟨asked', hasked'⟩ := exists_asked h' input
  obtain ⟨lookups, hlookups⟩ := grammar.arena.exists_lookups input
  obtain ⟨lookups', hlookups'⟩ := grammar'.arena.exists_lookups input
  have hmem := Kept.mem_reordered hre h h' hmodes hkept hkept'
  have hledger : audited.ledger.asked = audited'.ledger.asked := by
    rw [hkept.asked_eq asked lookups hasked hlookups,
      hkept'.asked_eq asked' lookups' hasked' hlookups',
      sum_asked_reordered hre h h' hmodes hasked hasked',
      Kept.lookups_reordered hre h h' hmodes hkept hkept' hlookups hlookups']
  have hsize := hkept.inOrder.size_congr hkept'.inOrder hmem
  have htable := hkept.inOrder.asked_eq
  have htable' := hkept'.inOrder.asked_eq
  omega

end Reordered

end AuditedSession

end Packrat
