import Packrat.Proofs.FlattenedMatching
import Packrat.Proofs.Sessions

/-!
# Nesting sequences means nothing

* `Grammar.MatchesAlike`: grammars that match the same, with the same tables.
* `Session.Flattens`: a session over a grammar with one sequence for two; **calls are answered
  alike** by both, and leave the same table (`Flattens.calls`).
* `Builder.build_flatten`: **the parts of a sequence may as well stand in the one it is a part of.**
-/

namespace Packrat

open Evaluation

/-- Two grammars match the same, and whatever is done in a session, the tables are the same. -/
structure Grammar.MatchesAlike (grammar grammar' : Grammar) : Prop where
  /-- After the same calls every node is matched with the same outcome. -/
  evaluate : ∀ text calls (id : NodeId) start mode, id.index < grammar.arena.nodes.size →
    ∃ outcome next next',
      ((grammar.session text).calls calls).2.evaluate id start mode = .ok (outcome, next) ∧
      ((grammar'.session text).calls calls).2.evaluate id start mode = .ok (outcome, next') ∧
      next.table? = next'.table?
  /-- The same calls are answered alike, and end with the same table. -/
  calls : ∀ text calls,
    ((grammar.session text).calls calls).1 = ((grammar'.session text).calls calls).1 ∧
      ((grammar.session text).calls calls).2.table? =
        ((grammar'.session text).calls calls).2.table?

theorem Arena.depthLimit_flatten (arena : Arena) (nesting : Nesting arena.nodes) (remaining : Nat) :
    (arena.flatten nesting).depthLimit remaining = arena.depthLimit remaining := by
  unfold depthLimit
  rw [show (arena.flatten nesting).nodes.size = arena.nodes.size from nesting.size_flattened]
  rfl

/-- What a run with two sequences ends with a run with one ends with. -/
theorem run_node_flatten {arena : Arena} (nesting : Nesting arena.nodes) {input : Input}
    {mode : Mode} {id : NodeId} {start : Nat} {table? : Option Memo.Table}
    {r : Reached Outcome × Option Memo.Table}
    (h : Evaluation.run (Evaluation.node arena input mode id start) start table? = .ok r) :
    Evaluation.run (Evaluation.node (arena.flatten nesting) input mode id start) start table? =
      .ok r := by
  unfold Evaluation.run Evaluation.node at h ⊢
  rw [arena.depthLimit_flatten nesting]
  cases table? with
  | none =>
    cases hrun : (evalNode arena input mode (arena.depthLimit (input.length - start)) id start :
        Attempt Outcome) start with
    | error e => simp [hrun] at h
    | ok reached =>
      have hflat : (evalNode (arena.flatten nesting) input mode
          (arena.depthLimit (input.length - start)) id start : Attempt Outcome) start =
            .ok reached := evalNode_flatten extendsResults nesting le_rfl id start start _ hrun
      simp only [hrun] at h
      simp only [hflat]
      exact h
  | some table =>
    cases hrun : (evalNode arena input mode (arena.depthLimit (input.length - start)) id start :
        Memoized Outcome) ⟨start, table⟩ with
    | error e => simp [hrun] at h
    | ok reached =>
      have hflat : (evalNode (arena.flatten nesting) input mode
          (arena.depthLimit (input.length - start)) id start : Memoized Outcome) ⟨start, table⟩ =
            .ok reached :=
        evalNode_flatten extendsProgress nesting le_rfl id start ⟨start, table⟩ _ hrun
      simp only [hrun] at h
      simp only [hflat]
      exact h

namespace Session

/-- What an evaluation that is not given up comes to. -/
theorem evaluate_eq_ok {session next : Session} {id : NodeId} {start : Nat} {mode : Mode}
    {outcome : Outcome} :
    session.evaluate id start mode = .ok (outcome, next) ↔
      (session.input.length < start ∧ outcome = .noMatchAt session.input.length ∧
          next = session) ∨
        (start ≤ session.input.length ∧ ∃ reached table?,
          Evaluation.run (Evaluation.node session.grammar.arena session.input mode id start) start
            session.table? = .ok (reached, table?) ∧
          outcome = reached.report ∧ next = { session with table? }) := by
  unfold evaluate
  by_cases hstart : session.input.length < start
  · simp [hstart, eq_comm]
  · rw [if_neg hstart]
    cases hrun : Evaluation.run (Evaluation.node session.grammar.arena session.input mode id start)
        start session.table? with
    | error fault => simp [hstart, hrun]
    | ok r =>
      obtain ⟨reached, table?⟩ := r
      simp [hstart, Nat.le_of_not_lt hstart, hrun, eq_comm]

variable {grammar : Grammar} {nesting : Nesting grammar.arena.nodes}

/-- Two sessions have the same input and the same table, the first over a grammar and the second
over the one with one sequence for two. -/
structure Flattens (nesting : Nesting grammar.arena.nodes) (session session' : Session) : Prop where
  grammar_eq : session.grammar = grammar
  flat_eq : session' = { session with grammar := grammar.flatten nesting }

namespace Flattens

variable {session session' next : Session} {input : Input} {id : NodeId} {start : Nat} {mode : Mode}
  {outcome : Outcome}

theorem table_eq (h : Flattens nesting session session') : session.table? = session'.table? := by
  rw [h.flat_eq]

/-- **A node is matched with the same outcome**, and then both sessions have the same table. -/
theorem evaluate (h : Flattens nesting session session')
    (heval : session.evaluate id start mode = .ok (outcome, next)) :
    ∃ next', session'.evaluate id start mode = .ok (outcome, next') ∧
      Flattens nesting next next' := by
  obtain ⟨rfl, rfl⟩ := h
  rcases evaluate_eq_ok.1 heval with
    ⟨hstart, rfl, rfl⟩ | ⟨hstart, reached, table?, hrun, rfl, rfl⟩
  · exact ⟨_, evaluate_eq_ok.2 (.inl ⟨hstart, rfl, rfl⟩), rfl, rfl⟩
  · have hflat := run_node_flatten nesting hrun
    exact ⟨_, evaluate_eq_ok.2 (.inr ⟨hstart, reached, table?, hflat, rfl, rfl⟩), rfl, rfl⟩

/-- What is kept of an evaluation that ends is the same. -/
theorem keep_evaluate (h : Flattens nesting session session')
    (heval : session.evaluate id start mode = .ok (outcome, next)) :
    (session.keep (session.evaluate id start mode)).1 =
        (session'.keep (session'.evaluate id start mode)).1 ∧
      Flattens nesting (session.keep (session.evaluate id start mode)).2
        (session'.keep (session'.evaluate id start mode)).2 := by
  obtain ⟨next', heval', hnext⟩ := h.evaluate heval
  rw [heval, heval']
  exact ⟨rfl, hnext⟩

/-- **A call is answered alike.** -/
theorem call (h : Flattens nesting session session') (hs : session.Serves grammar input)
    (hbuilt : grammar.Built) (call : Call) :
    (session.call call).1 = (session'.call call).1 ∧
      Flattens nesting (session.call call).2 (session'.call call).2 := by
  have ⟨hgrammar, hflat⟩ := h
  cases call with
  | parse start mode =>
    obtain ⟨outcome, next, hparse, -⟩ := hs.parse hbuilt start mode
    have hroot : session'.grammar.root = session.grammar.root := by rw [hflat, hgrammar]; rfl
    rw [Session.call, Session.call, Session.parse, Session.parse, hroot]
    exact h.keep_evaluate hparse
  | parseRule name start mode =>
    have hnames : session'.grammar.ruleNode? name = session.grammar.ruleNode? name := by
      rw [hflat, hgrammar]
      rfl
    rw [Session.call, Session.call, Session.parseRule, Session.parseRule, hnames]
    cases hname : session.grammar.ruleNode? name with
    | none => exact ⟨rfl, h⟩
    | some id =>
      rw [hgrammar] at hname
      obtain ⟨outcome, next, heval, -⟩ :=
        hs.evaluate hbuilt (hbuilt.ruleNode?_lt hname) start mode
      exact h.keep_evaluate heval
  | clear => exact ⟨rfl, hgrammar, by rw [hflat]; rfl⟩

/-- **Any calls are answered alike**, and then both sessions have the same table. -/
theorem calls (h : Flattens nesting session session') (hs : session.Serves grammar input)
    (hbuilt : grammar.Built) (calls : List Call) :
    (session.calls calls).1 = (session'.calls calls).1 ∧
      Flattens nesting (session.calls calls).2 (session'.calls calls).2 := by
  induction calls generalizing session session' with
  | nil => exact ⟨rfl, h⟩
  | cons call rest ih =>
    obtain ⟨hanswer, hnext⟩ := h.call hs hbuilt call
    obtain ⟨hanswers, hlast⟩ := ih hnext (hs.call hbuilt call).2.2
    exact ⟨congrArg₂ List.cons hanswer hanswers, hlast⟩

end Flattens

end Session

/-- **A grammar matches as it does with one sequence for two.** -/
theorem Grammar.Built.matchesAlike_flatten {grammar : Grammar} (h : grammar.Built)
    (nesting : Nesting grammar.arena.nodes) : grammar.MatchesAlike (grammar.flatten nesting) := by
  have hfresh : ∀ text, Session.Flattens nesting (grammar.session text)
      ((grammar.flatten nesting).session text) := fun text => ⟨rfl, rfl⟩
  have hcalls := fun text => (hfresh text).calls (grammar.session_serves text) h
  constructor
  · intro text calls id start mode hid
    have hserves := ((grammar.session_serves text).calls h calls).2
    obtain ⟨outcome, next, heval, -⟩ := hserves.evaluate h hid start mode
    obtain ⟨next', heval', hnext⟩ := (hcalls text calls).2.evaluate heval
    exact ⟨outcome, next, next', heval, heval', hnext.table_eq⟩
  · intro text calls
    exact ⟨(hcalls text calls).1, (hcalls text calls).2.table_eq⟩

namespace Builder

variable {tag : Nat} {operations : List Operation} {issued : List NodeId} {builder : Builder}

/-- **Nesting sequences means nothing.** In a builder, after any steps, let a sequence be a part of
another one, which then gets the parts of it in its place, while all else stays. Either both are
refused for the same reason, with the same cycle if it is for one, or both make a grammar. These
match every node from every offset of every text with the same outcome, in either mode, with tables
and without; and after the same calls sessions have the same tables. -/
theorem build_flatten (hrun : (new tag).run operations = (issued, builder))
    (nesting : Nesting builder.nodes) (root : NodeId) (config : Config) :
    (∃ e, builder.build root config = .error e ∧
        (builder.flatten nesting).build root config = .error e) ∨
      ∃ grammar grammar', builder.build root config = .ok grammar ∧
        (builder.flatten nesting).build root config = .ok grammar' ∧
        grammar.MatchesAlike grammar' := by
  obtain rfl : builder = ((new tag).run operations).2 := by rw [hrun]
  have hwf := (new_wellFormed tag).run operations
  obtain herror | ⟨hbuild, hflat⟩ := build_flatten_eq_or hwf nesting root config
  · exact .inl herror
  · have hbuilt : Grammar.Built ⟨((new tag).run operations).2.frozen, root, config⟩ :=
      ⟨tag, operations, root, config, hbuild⟩
    exact .inr ⟨_, _, hbuild, hflat, hbuilt.matchesAlike_flatten nesting⟩

/-- The rule `list = "a" ("," list) | "a"`. -/
def listBuilder : Builder where
  tag := 0
  nodes := #[.rule 0, .primitive (.ofString ","), .sequence [⟨1, 0⟩, ⟨0, 0⟩],
    .primitive (.ofString "a"), .sequence [⟨3, 0⟩, ⟨2, 0⟩]]
  rules := #[⟨"list", ⟨0, 0⟩, some [⟨4, 0⟩, ⟨3, 0⟩]⟩]
  names := [("list", 0)]

/-- The sequence in brackets, in which the rule comes back. -/
def listNesting : Nesting listBuilder.nodes where
  place := 4
  front := [⟨3, 0⟩]
  part := ⟨2, 0⟩
  back := []
  inner := [⟨1, 0⟩, ⟨0, 0⟩]
  outer_eq := rfl
  inner_eq := rfl

/-- The brackets can be left out of the rule `list`. -/
theorem build_flatten_list :
    (new 0).run [.rule "list", .literal ",", .sequence [⟨1, 0⟩, ⟨0, 0⟩], .literal "a",
        .sequence [⟨3, 0⟩, ⟨2, 0⟩], .bind ⟨0, 0⟩ [⟨4, 0⟩, ⟨3, 0⟩]] =
        ([⟨0, 0⟩, ⟨1, 0⟩, ⟨2, 0⟩, ⟨3, 0⟩, ⟨4, 0⟩], listBuilder) ∧
      (listBuilder.flatten listNesting).nodes[4]? = some (.sequence [⟨3, 0⟩, ⟨1, 0⟩, ⟨0, 0⟩]) ∧
      ∃ grammar grammar', listBuilder.build ⟨0, 0⟩ {} = .ok grammar ∧
        (listBuilder.flatten listNesting).build ⟨0, 0⟩ {} = .ok grammar' ∧
        grammar.MatchesAlike grammar' := by
  have hrun : (new 0).run [.rule "list", .literal ",", .sequence [⟨1, 0⟩, ⟨0, 0⟩], .literal "a",
      .sequence [⟨3, 0⟩, ⟨2, 0⟩], .bind ⟨0, 0⟩ [⟨4, 0⟩, ⟨3, 0⟩]] =
      ([⟨0, 0⟩, ⟨1, 0⟩, ⟨2, 0⟩, ⟨3, 0⟩, ⟨4, 0⟩], listBuilder) := by decide +kernel
  refine ⟨hrun, by decide, ?_⟩
  obtain ⟨e, herror, -⟩ | hgrammars := build_flatten hrun listNesting ⟨0, 0⟩ {}
  · have hok : (listBuilder.build ⟨0, 0⟩ {}).isOk = true := by decide +kernel
    rw [herror] at hok
    cases hok
  · exact hgrammars

end Builder

end Packrat
