import Packrat.Session
import Packrat.Proofs.TableReading
import Packrat.Proofs.Termination

/-!
# What sessions answer

A session serves a grammar over an input when it is about them and what stands in its table is
settled plainly. Calls keep it so.

* `evaluate_plain`: **a session without a table** answers with the plain evaluation.
* `Serves.call`, `Serves.calls`: any other session answers in the same way.
* `Built.evaluation_ends`: **evaluations of a built grammar end**, and calls are answered.
-/

namespace Packrat

open Evaluation

variable {grammar : Grammar} {input : Input} {session : Session} {id : NodeId} {start : Nat}
  {mode : Mode}

namespace Session

/-- The session is about the arena and the root of `grammar` and about `input`, and every entry of
its table is sound. -/
structure Serves (grammar : Grammar) (input : Input) (session : Session) : Prop where
  arena_eq : session.grammar.arena = grammar.arena
  root_eq : session.grammar.root = grammar.root
  input_eq : session.input = input
  sound : ∀ table, session.table? = some table → table.Sound grammar.arena input

/-- **A session without a table** answers with the plain evaluation. -/
theorem evaluate_plain (hbuilt : grammar.Built) (hid : id.index < grammar.arena.nodes.size)
    (hstart : start ≤ input.length) (mode : Mode) :
    ∃ outcome farthest,
      (plainNode grammar.arena input mode (grammar.arena.depthLimit (input.length - start))
        id start).run start = .ok (outcome, farthest) ∧
      (Session.mk grammar input none).evaluate id start mode =
        .ok ((Reached.mk outcome farthest).report, ⟨grammar, input, none⟩) := by
  obtain ⟨⟨outcome, farthest⟩, hrun⟩ :=
    hbuilt.exists_run_evalNode mode start hid hstart (Nat.le_refl _)
  refine ⟨outcome, farthest, hrun, ?_⟩
  have hrun : plainNode grammar.arena input mode (grammar.arena.depthLimit (input.length - start))
      id start start = .ok (outcome, farthest) := hrun
  unfold evaluate
  rw [if_neg (by simpa using hstart)]
  simp only [Evaluation.run, Evaluation.node, hrun]

/-- **A session with a sound table answers as one without a table**, and its table stays sound. -/
theorem Serves.evaluate (hs : session.Serves grammar input) (hbuilt : grammar.Built)
    (hid : id.index < grammar.arena.nodes.size) (start : Nat) (mode : Mode) :
    ∃ outcome next, session.evaluate id start mode = .ok (outcome, next) ∧
      next.Serves grammar input ∧
      (Session.mk grammar input none).evaluate id start mode =
        .ok (outcome, ⟨grammar, input, none⟩) := by
  obtain ⟨⟨arena, root, config⟩, text, table?⟩ := session
  obtain ⟨rfl, hroot, rfl, hsound⟩ := hs
  -- behind the end of the text nothing is tried, with a table or without
  by_cases hstart : start ≤ text.length
  · obtain ⟨outcome, farthest, hrun, hplain⟩ := evaluate_plain hbuilt hid hstart mode
    rw [hplain]
    unfold Session.evaluate
    rw [if_neg (by simpa using hstart)]
    cases table? with
    | none =>
      have hrun : plainNode grammar.arena text mode
          (grammar.arena.depthLimit (text.length - start)) id start start =
            .ok (outcome, farthest) := hrun
      simp only [Evaluation.run, Evaluation.node, hrun]
      exact ⟨_, _, rfl, ⟨rfl, hroot, rfl, hsound⟩, rfl⟩
    | some table =>
      obtain ⟨next, hmemo, hnext⟩ :=
        evalNode_table _ id start ⟨start, table⟩ outcome farthest (hsound table rfl) hrun
      have hmemo : (evalNode grammar.arena text mode
          (grammar.arena.depthLimit (text.length - start)) id start : Memoized Outcome)
            ⟨start, table⟩ = .ok (outcome, ⟨farthest, next⟩) := hmemo
      simp only [Evaluation.run, Evaluation.node, hmemo]
      refine ⟨_, _, rfl, ⟨rfl, hroot, rfl, fun table htable => ?_⟩, rfl⟩
      cases htable
      exact hnext
  · unfold Session.evaluate
    rw [if_pos (by simpa using hstart), if_pos (by simpa using hstart)]
    exact ⟨_, _, rfl, ⟨rfl, hroot, rfl, hsound⟩, rfl⟩

/-- What a session without a table answers any session answers. -/
theorem Serves.evaluate_of_plain (hs : session.Serves grammar input) (hbuilt : grammar.Built)
    (hid : id.index < grammar.arena.nodes.size) {outcome : Outcome} {last : Session}
    (hplain : (Session.mk grammar input none).evaluate id start mode = .ok (outcome, last)) :
    ∃ next, session.evaluate id start mode = .ok (outcome, next) := by
  obtain ⟨found, next, heval, -, hsame⟩ := hs.evaluate hbuilt hid start mode
  rw [hplain] at hsame
  cases hsame
  exact ⟨next, heval⟩

theorem ruleNode?_congr {other : Grammar} (h : other.arena = grammar.arena) (name : String) :
    other.ruleNode? name = grammar.ruleNode? name := by
  unfold Grammar.ruleNode?
  rw [h]

theorem Serves.clear (hs : session.Serves grammar input) : session.clear.Serves grammar input := by
  refine ⟨hs.arena_eq, hs.root_eq, hs.input_eq, fun table htable => ?_⟩
  obtain ⟨_, -, rfl⟩ := Option.map_eq_some_iff.1 htable
  exact Memo.Table.sound_empty grammar.arena input

/-- A session answers `parse` with the outcome that there is without a table. -/
theorem Serves.parse (hs : session.Serves grammar input) (hbuilt : grammar.Built) (start : Nat)
    (mode : Mode) :
    ∃ outcome next, session.parse start mode = .ok (outcome, next) ∧ next.Serves grammar input ∧
      (Session.mk grammar input none).parse start mode = .ok (outcome, ⟨grammar, input, none⟩) := by
  unfold Session.parse
  rw [hs.root_eq]
  exact hs.evaluate hbuilt hbuilt.root_lt start mode

/-- So it does `parseRule`, for the name of a rule. -/
theorem Serves.parseRule (hs : session.Serves grammar input) (hbuilt : grammar.Built)
    {name : String} (hname : grammar.ruleNode? name = some id) (start : Nat) (mode : Mode) :
    ∃ outcome next, session.parseRule name start mode = .ok (outcome, next) ∧
      next.Serves grammar input ∧ (Session.mk grammar input none).parseRule name start mode =
        .ok (outcome, ⟨grammar, input, none⟩) := by
  unfold Session.parseRule
  rw [ruleNode?_congr hs.arena_eq, hname]
  exact hs.evaluate hbuilt (hbuilt.ruleNode?_lt hname) start mode

theorem Serves.parseRule_of_none (hs : session.Serves grammar input) {name : String}
    (hname : grammar.ruleNode? name = none) (start : Nat) (mode : Mode) :
    session.parseRule name start mode = .error (.unknownRule name) := by
  unfold Session.parseRule
  rw [ruleNode?_congr hs.arena_eq, hname]

/-- A session without a table serves its grammar over its input. -/
theorem serves_mk_none (grammar : Grammar) (input : Input) :
    (Session.mk grammar input none).Serves grammar input :=
  ⟨rfl, rfl, rfl, fun _ h => by cases h⟩

/-- An answer that is no fault: an outcome, or none where none was asked for, or that there is no
rule of a name. -/
def Call.Answered (grammar : Grammar) (answer : Except Error (Option Outcome)) : Call → Prop
  | .parse _ _ => ∃ outcome, answer = .ok (some outcome)
  | .parseRule name _ _ =>
    if (grammar.ruleNode? name).isSome then ∃ outcome, answer = .ok (some outcome)
    else answer = .error (.unknownRule name)
  | .clear => answer = .ok none

/-- **A call is answered**, as without a table, and keeps the session in order. -/
theorem Serves.call (hs : session.Serves grammar input) (hbuilt : grammar.Built) (call : Call) :
    (session.call call).1 = ((Session.mk grammar input none).call call).1 ∧
      call.Answered grammar (session.call call).1 ∧ (session.call call).2.Serves grammar input := by
  cases call with
  | parse start mode =>
    obtain ⟨outcome, next, hmemo, hnext, hplain⟩ := hs.parse hbuilt start mode
    simp only [Session.call, hmemo, hplain, keep]
    exact ⟨trivial, ⟨outcome, rfl⟩, hnext⟩
  | parseRule name start mode =>
    cases hname : grammar.ruleNode? name with
    | none =>
      simp only [Session.call, hs.parseRule_of_none hname,
        (serves_mk_none grammar input).parseRule_of_none hname, keep, Call.Answered, hname]
      exact ⟨trivial, by simp, hs⟩
    | some id =>
      obtain ⟨outcome, next, hmemo, hnext, hplain⟩ := hs.parseRule hbuilt hname start mode
      simp only [Session.call, hmemo, hplain, keep, Call.Answered, hname]
      exact ⟨trivial, by simp, hnext⟩
  | clear => exact ⟨rfl, rfl, hs.clear⟩

/-- **Any calls are answered** as each of them is without a table. -/
theorem Serves.calls (hs : session.Serves grammar input) (hbuilt : grammar.Built)
    (calls : List Call) :
    (session.calls calls).1 =
        calls.map (fun call => ((Session.mk grammar input none).call call).1) ∧
      (session.calls calls).2.Serves grammar input := by
  induction calls generalizing session with
  | nil => exact ⟨rfl, hs⟩
  | cons call rest ih =>
    obtain ⟨hanswer, -, hnext⟩ := hs.call hbuilt call
    obtain ⟨hanswers, hlast⟩ := ih hnext
    refine ⟨?_, hlast⟩
    rw [List.map_cons, ← hanswer, ← hanswers]
    rfl

end Session

/-- A session that was just opened. -/
theorem Grammar.session_serves (grammar : Grammar) (text : String) :
    (grammar.session text).Serves grammar (.ofString text) := by
  refine ⟨rfl, rfl, rfl, fun table htable => ?_⟩
  simp only [session, freshTable?, Option.ite_none_right_eq_some] at htable
  rw [← Option.some.inj htable.2]
  exact Memo.Table.sound_empty grammar.arena _

/-- **Evaluations of a built grammar end.** From any offset of the text, in either mode, a limit
on the depth that follows from the numbers of nodes and rules and from the text that is left
suffices, without a table and with that of any session. So every call is answered. -/
theorem Grammar.Built.evaluation_ends (h : grammar.Built) (text : String)
    (calls : List Session.Call) :
    (∀ (id : NodeId) (pos : Nat) (mode : Mode) (farthest : Nat),
      id.index < grammar.arena.nodes.size → pos ≤ text.length →
      ∃ outcome farthest', ∀ depth,
        (text.length - pos + 1) * (grammar.arena.rules.size + 1) *
          (grammar.arena.nodes.size + 1) ≤ depth →
        (evalNode grammar.arena (.ofString text) mode depth id pos : Attempt Outcome).run
            farthest = .ok (outcome, farthest') ∧
          ∀ table, ((grammar.session text).calls calls).2.table? = some table →
            ∃ table', (evalNode grammar.arena (.ofString text) mode depth id pos :
              Memoized Outcome).run ⟨farthest, table⟩ = .ok (outcome, ⟨farthest', table'⟩)) ∧
      (∀ call : Session.Call,
        call.Answered grammar (((grammar.session text).calls calls).2.call call).1) ∧
      (∀ start mode, ∃ outcome, grammar.parse text start mode = .ok outcome) ∧
      ∀ name start mode,
        if (grammar.ruleNode? name).isSome then
          ∃ outcome, grammar.parseRule name text start mode = .ok outcome
        else grammar.parseRule name text start mode = .error (.unknownRule name) := by
  have hfresh := grammar.session_serves text
  have hserves := (hfresh.calls h calls).2
  refine ⟨?_, fun call => (hserves.call h call).2.1, ?_, ?_⟩
  · intro id pos mode farthest hid hpos
    rw [← Input.length_ofString] at hpos
    obtain ⟨⟨outcome, farthest'⟩, hrun⟩ :=
      h.exists_run_evalNode mode farthest hid hpos (Nat.le_refl _)
    refine ⟨outcome, farthest', fun depth hdepth => ?_⟩
    rw [← Input.length_ofString] at hdepth
    have hplain := evalNode_mono hdepth id pos farthest hrun
    refine ⟨hplain, fun table htable => ?_⟩
    obtain ⟨table', hmemo, -⟩ := evalNode_table depth id pos ⟨farthest, table⟩ outcome farthest'
      (hserves.sound table htable) hplain
    exact ⟨table', hmemo⟩
  · intro start mode
    obtain ⟨outcome, next, hparse, -⟩ := hfresh.parse h start mode
    exact ⟨outcome, by rw [Grammar.parse, hparse]; rfl⟩
  · intro name start mode
    rw [Grammar.parseRule]
    cases hname : grammar.ruleNode? name with
    | none =>
      rw [hfresh.parseRule_of_none hname]
      rfl
    | some id =>
      obtain ⟨outcome, next, hparse, -⟩ := hfresh.parseRule h hname start mode
      exact ⟨outcome, by rw [hparse]; rfl⟩

theorem Grammar.onlyAs_evaluation_ends :
    Grammar.onlyAs.Built ∧
      (∃ outcome farthest', ∀ depth, (3 - 1 + 1) * (1 + 1) * (4 + 1) ≤ depth →
        (evalNode Grammar.onlyAs.arena (.ofString "aab") .lexer depth ⟨2, 0⟩ 1 :
          Attempt Outcome).run 1 = .ok (outcome, farthest')) ∧
      ∃ outcome, Grammar.onlyAs.parse "aab" 7 .parser = .ok outcome := by
  have h := Grammar.onlyAs_built.evaluation_ends "aab" [.parse 0 .parser]
  obtain ⟨outcome, farthest', hends⟩ := h.1 ⟨2, 0⟩ 1 .lexer 1 (by decide) (by decide)
  exact ⟨Grammar.onlyAs_built, ⟨outcome, farthest', fun depth hdepth => (hends depth hdepth).1⟩,
    h.2.2.1 7 .parser⟩

end Packrat
