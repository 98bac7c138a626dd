import Packrat.Evaluation.Asserted
import Packrat.Proofs.MaximalMunch

/-!
# Outcomes stay inside the text

A match begins where it was asked for and ends in the text, so it can be cut out of the text in
either way; a failure is reported in between. No evaluation makes a span that ends before it
begins, at whatever offset it is begun.

* `evalNode_ordered`: matches begin at the offset, and do not end before.
* `assertedNode_eq`, `assertedNode_table`: assertions hold, plainly and with a table.
* `Outcome.Inside`: an outcome that stays inside a text.
* `Built.outcomes_inside`: **outcomes stay inside the text, and all spans are in order.**
-/

namespace Packrat

open Evaluation

variable {arena : Arena} {input : Input} {mode : Mode} {depth pos f f' : Nat} {id : NodeId}
  {outcome : Outcome}

/-- What can become of a match that began at `start` and has come to `pos`, wherever that is. -/
def Outcome.Ordered (start pos : Nat) : Outcome → Prop
  | .matched span => span.start = start ∧ pos ≤ span.stop
  | .noMatch _ => True

theorem attempt_ordered (p : Primitive) (input : Input) (pos : Nat) :
    (p.attempt input pos).Ordered pos pos := by
  unfold Primitive.attempt
  split
  · exact ⟨rfl, Nat.le_add_right pos _⟩
  · trivial

theorem evalSequence_ordered {children : List NodeId} {start : Nat}
    (heval : ∀ child ∈ children, ∀ pos f outcome f',
      (plainNode arena input mode depth child pos).run f = .ok (outcome, f') →
        outcome.Ordered pos pos)
    (h : (evalSequence (plainNode arena input mode depth) start children pos).run f =
      .ok (outcome, f')) : outcome.Ordered start pos := by
  induction children generalizing pos f with
  | nil =>
    obtain ⟨rfl, -⟩ := run_pure_eq_ok.1 h
    exact ⟨rfl, Nat.le_refl pos⟩
  | cons child rest ih =>
    obtain ⟨first, t, hone, ⟨span, rfl, hrest⟩ | ⟨failure, rfl, rfl, rfl⟩⟩ :=
      evalSequence_cons_run h
    · obtain ⟨-, hle⟩ := heval child List.mem_cons_self pos f _ t hone
      have hordered := ih (fun c hc => heval c (List.mem_cons_of_mem _ hc)) hrest
      cases outcome with
      | matched other => exact ⟨hordered.1, Nat.le_trans hle hordered.2⟩
      | noMatch failure => trivial
    · trivial

theorem plainBody_ordered {rule : Rule} {resolution : Resolution}
    (heval : ∀ id pos f outcome f',
      (plainNode arena input mode depth id pos).run f = .ok (outcome, f') →
        outcome.Ordered pos pos)
    (h : (plainBody arena input mode depth rule pos).run f = .ok (resolution, f')) :
    resolution.toOutcome.Ordered pos pos := by
  obtain ⟨outcomes, htried, rfl⟩ := run_resolve_eq_ok.1 h
  refine toOutcome_ofOutcomes (P := Outcome.Ordered pos pos) trivial ?_
  exact forall_of_run_triedOutcomes (fun a _ s outcome s' h => heval a pos s outcome s' h) htried

/-- What a step comes to is in order if what it is put together from is. -/
theorem NodeRun.ordered
    (heval : ∀ id pos f outcome f',
      (plainNode arena input mode depth id pos).run f = .ok (outcome, f') →
        outcome.Ordered pos pos)
    (hrun : NodeRun arena input mode depth id pos f outcome f') : outcome.Ordered pos pos := by
  cases hrun with
  | primitive p hnode => exact attempt_ordered p input pos
  | sequence children hnode _ _ hrun =>
    exact evalSequence_ordered (fun child _ => heval child) hrun
  | rule rid rule hnode hrule resolution inner hrun => exact plainBody_ordered heval hrun

/-- **Matches begin at the offset and do not end before it**, wherever that is. -/
theorem evalNode_ordered
    (h : (plainNode arena input mode depth id pos).run f = .ok (outcome, f')) :
    outcome.Ordered pos pos := by
  induction depth generalizing id pos f outcome f' with
  | zero => cases h
  | succ depth ih =>
    obtain ⟨inner, hrun, -⟩ := evalNode_run_eq_ok.1 h
    exact hrun.ordered fun id pos f outcome f' h => ih h

/-- Taking note of an outcome in the text keeps the farthest failure in the text. -/
theorem noted_le {start : Nat} (hf : f ≤ input.length) (h : outcome.Within input start pos) :
    noted outcome f ≤ input.length := by
  cases outcome with
  | matched span => exact hf
  | noMatch failure => exact Nat.max_le.2 ⟨hf, h.2⟩

theorem evalSequence_farthest_le {children : List NodeId} {start : Nat} (hpos : pos ≤ input.length)
    (heval : ∀ child ∈ children, ∀ pos f outcome f', pos ≤ input.length → f ≤ input.length →
      (plainNode arena input mode depth child pos).run f = .ok (outcome, f') → f' ≤ input.length)
    (hf : f ≤ input.length)
    (h : (evalSequence (plainNode arena input mode depth) start children pos).run f =
      .ok (outcome, f')) : f' ≤ input.length := by
  induction children generalizing pos f with
  | nil =>
    obtain ⟨-, rfl⟩ := run_pure_eq_ok.1 h
    exact hf
  | cons child rest ih =>
    obtain ⟨first, t, hone, hcases⟩ := evalSequence_cons_run h
    have ht := heval child List.mem_cons_self pos f first t hpos hf hone
    rcases hcases with ⟨span, rfl, hrest⟩ | ⟨failure, -, -, rfl⟩
    · obtain ⟨-, -, hstop⟩ := evalNode_within hpos hone
      exact ih hstop (fun c hc => heval c (List.mem_cons_of_mem _ hc)) ht hrest
    · exact ht

/-- **The farthest failure is in the text**, for a node that is matched in the text. -/
theorem evalNode_farthest_le (hpos : pos ≤ input.length) (hf : f ≤ input.length)
    (h : (plainNode arena input mode depth id pos).run f = .ok (outcome, f')) :
    f' ≤ input.length := by
  have hwithin := evalNode_within hpos h
  induction depth generalizing id pos f outcome f' with
  | zero => cases h
  | succ depth ih =>
    have heval : ∀ id pos f outcome f', pos ≤ input.length → f ≤ input.length →
        (plainNode arena input mode depth id pos).run f = .ok (outcome, f') →
          f' ≤ input.length :=
      fun id pos f outcome f' hpos hf h => ih hpos hf h (evalNode_within hpos h)
    obtain ⟨inner, hrun, rfl⟩ := evalNode_run_eq_ok.1 h
    refine noted_le ?_ hwithin
    cases hrun with
    | primitive p hnode => exact hf
    | sequence children hnode _ _ hrun =>
      exact evalSequence_farthest_le hpos (fun child _ => heval child) hf hrun
    | rule rid rule hnode hrule resolution g hrun =>
      obtain ⟨outcomes, htried, -⟩ := run_resolve_eq_ok.1 hrun
      have hg : g ≤ input.length :=
        run_triedOutcomes_keeps (P := (· ≤ input.length))
          (fun a _ f outcome f' hf h => heval a pos f outcome f' hpos hf h) hpos htried
      exact Nat.max_le.2 ⟨hf, hg⟩

section Assertions

variable (alarm : Fault)

theorem assertOrdered_of_ordered {m : Type → Type} [Matching m] {start : Nat}
    (h : outcome.Ordered start start) : (assertOrdered alarm outcome : m Outcome) = pure outcome := by
  cases outcome with
  | matched span =>
    have hle : span.start ≤ span.stop := h.1 ▸ h.2
    exact if_pos hle
  | noMatch failure => rfl

theorem assertedNode_succ {m : Type → Type} [Matching m] :
    (assertedNode alarm arena input mode (depth + 1) id pos : m Outcome) =
      matchNode arena input mode (assertedNode alarm arena input mode depth) id pos >>=
        fun outcome => assertOrdered alarm outcome >>= noteFailure :=
  rfl

theorem evalNode_succ {m : Type → Type} [Matching m] :
    (evalNode arena input mode (depth + 1) id pos : m Outcome) =
      matchNode arena input mode (evalNode arena input mode depth) id pos >>= noteFailure :=
  rfl

theorem run_none_congr {α : Type} {x y : Evaluation α} {start : Nat}
    (h : (x : Attempt α) = y) : Evaluation.run x start none = Evaluation.run y start none := by
  simp only [Evaluation.run, h]

theorem run_some_of_ok {α : Type} {x : Evaluation α} {a : α} {start : Nat} {table : Memo.Table}
    {progress : Progress} (h : (x : Memoized α).run ⟨start, table⟩ = .ok (a, progress)) :
    Evaluation.run x start (some table) =
      .ok (⟨a, progress.farthest⟩, some progress.table) := by
  have h : (x : Memoized α) ⟨start, table⟩ = .ok (a, progress) := h
  simp only [Evaluation.run, h]

/-- **Plainly, all assertions hold.** -/
theorem assertedNode_eq (depth : Nat) :
    (assertedNode alarm arena input mode depth : NodeId → Nat → Attempt Outcome) =
      plainNode arena input mode depth := by
  induction depth with
  | zero => rfl
  | succ depth ih =>
    funext id pos
    rw [assertedNode_succ, plainNode, evalNode_succ, ih]
    funext f
    show StateT.run _ f = StateT.run _ f
    rw [StateT.run_bind, StateT.run_bind]
    cases hmatch : (matchNode arena input mode (plainNode arena input mode depth) id pos).run f with
    | error e => rfl
    | ok r =>
      obtain ⟨outcome, inner⟩ := r
      have hrun : (plainNode arena input mode (depth + 1) id pos).run f =
          .ok (outcome, noted outcome inner) :=
        run_bind_eq_ok.2 ⟨outcome, inner, hmatch, noteFailure_run outcome inner⟩
      show (assertOrdered alarm outcome >>= noteFailure : Attempt Outcome).run inner =
        (noteFailure outcome : Attempt Outcome).run inner
      rw [assertOrdered_of_ordered alarm (evalNode_ordered hrun), pure_bind]

/-- With a sound table an evaluation that asserts its spans ends as the plain one does. -/
theorem assertedNode_table (depth : Nat) (id : NodeId) (pos : Nat) :
    Agrees arena input (assertedNode alarm arena input mode depth id pos)
      (plainNode arena input mode depth id pos) := by
  induction depth generalizing id pos with
  | zero => exact (tableReading arena input).fault _
  | succ depth ih =>
    -- the plain evaluation may as well assert its spans
    rw [← assertedNode_eq alarm, assertedNode_succ, assertedNode_succ, assertedNode_eq alarm]
    refine (tableReading arena input).bind
      ((tableReading arena input).matchNode settles_table ih id pos) fun outcome => ?_
    refine (tableReading arena input).bind ?_ fun outcome => ?_
    · cases outcome with
      | noMatch failure => exact (tableReading arena input).pure _
      | matched span =>
        show (tableReading arena input).Rel (ite _ _ _) (ite _ _ _)
        split_ifs
        · exact (tableReading arena input).pure _
        · exact (tableReading arena input).fault _
    · cases outcome with
      | matched span => exact (tableReading arena input).pure _
      | noMatch failure =>
        exact (tableReading arena input).bind ((tableReading arena input).reach _)
          fun _ => (tableReading arena input).pure _

/-- What an evaluation comes to that asserts its spans, it comes to without. -/
theorem assertedNode_keeps (depth : Nat) (id : NodeId) (pos : Nat) :
    keepsProgress.Rel (assertedNode alarm arena input mode depth id pos)
      (evalNode arena input mode depth id pos) := by
  induction depth generalizing id pos with
  | zero => exact keepsProgress.fault _
  | succ depth ih =>
    rw [assertedNode_succ, evalNode_succ]
    have hsettles : keepsProgress.Settles arena mode (assertedNode alarm arena input mode depth)
        (evalNode arena input mode depth) :=
      fun id rule pos _ => extendsProgress.settling ⟨id, pos, mode⟩
    refine keepsProgress.bind (keepsProgress.matchNode hsettles ih id pos) fun outcome => ?_
    intro progress r h
    obtain ⟨same, inner, hassert, hnote⟩ := run_bind_eq_ok.1 h
    cases outcome with
    | noMatch failure =>
      obtain ⟨rfl, rfl⟩ := run_pure_eq_ok.1 hassert
      exact hnote
    | matched span =>
      unfold assertOrdered at hassert
      simp only at hassert
      split_ifs at hassert
      · obtain ⟨rfl, rfl⟩ := run_pure_eq_ok.1 hassert
        exact hnote
      · cases hassert

/-- An evaluation that ends plainly ends with a sound table as well. -/
theorem exists_run_of_plain {start : Nat} {table? : Option Memo.Table}
    (hsound : ∀ table, table? = some table → table.Sound arena input)
    (h : ∃ r, (plainNode arena input mode depth id pos).run start = .ok r) :
    ∃ r, Evaluation.run (evalNode arena input mode depth id pos) start table? = .ok r := by
  obtain ⟨⟨outcome, farthest⟩, hplain⟩ := h
  cases table? with
  | none =>
    have hplain : plainNode arena input mode depth id pos start = .ok (outcome, farthest) := hplain
    simp only [Evaluation.run, hplain]
    exact ⟨_, rfl⟩
  | some table =>
    obtain ⟨last, hmemo, -⟩ :=
      evalNode_table depth id pos ⟨start, table⟩ outcome farthest (hsound table rfl) hplain
    exact ⟨_, run_some_of_ok hmemo⟩

/-- **An evaluation that asserts its spans is the evaluation itself**, with a sound table or plainly,
where that ends. -/
theorem run_assertedNode {start : Nat} {table? : Option Memo.Table}
    (hsound : ∀ table, table? = some table → table.Sound arena input)
    (h : ∃ r, (plainNode arena input mode depth id pos).run start = .ok r) :
    Evaluation.run (assertedNode alarm arena input mode depth id pos) start table? =
      Evaluation.run (evalNode arena input mode depth id pos) start table? := by
  cases table? with
  | none => exact run_none_congr (congrFun (congrFun (assertedNode_eq alarm depth) id) pos)
  | some table =>
    obtain ⟨⟨outcome, farthest⟩, hplain⟩ := h
    obtain ⟨last, hasserted, -⟩ := assertedNode_table alarm depth id pos ⟨start, table⟩ outcome
      farthest (hsound table rfl) hplain
    have heval := assertedNode_keeps alarm depth id pos ⟨start, table⟩ _ hasserted
    rw [run_some_of_ok hasserted, run_some_of_ok heval]

end Assertions

/-- The outcome of a match from `start` on stays inside a text. A match begins at `start` and ends
in the text, and is cut out of it in two ways, to so many characters as it takes; a failure is
between `start`, or the end if that is before, and the end. -/
def Outcome.Inside (text : String) (start : Nat) : Outcome → Prop
  | .matched span => start ≤ text.length ∧ span.start = start ∧ start ≤ span.stop ∧
      span.stop ≤ text.length ∧ span.substringOf text = (Input.ofString text).slice span ∧
      (span.substringOf text).length = span.length
  | .noMatch failure => min start text.length ≤ failure.index ∧ failure.index ≤ text.length

/-- A span in a text is cut out of it in two ways. -/
theorem Span.substringOf_eq_slice {span : Span} {text : String} (hle : span.start ≤ span.stop)
    (hstop : span.stop ≤ text.length) :
    span.substringOf text = (Input.ofString text).slice span ∧
      (span.substringOf text).length = span.length := by
  constructor
  · rw [← String.toList_inj, Input.toList_slice hle (by simpa using hstop), Span.substringOf,
      String.toList_ofList]
    rfl
  · rw [Span.substringOf, String.length_ofList, List.length_take, List.length_drop,
      String.length_toList, Span.length]
    omega

variable {text : String} {start farthest : Nat}

theorem inside_of_within (hstart : start ≤ text.length)
    (hwithin : outcome.Within (.ofString text) start start) (hfarthest : farthest ≤ text.length) :
    (Reached.mk outcome farthest).report.Inside text start := by
  cases outcome with
  | matched span =>
    obtain ⟨hspan, hle, hstop⟩ := hwithin
    rw [Input.length_ofString] at hstop
    obtain ⟨hslice, hlength⟩ := Span.substringOf_eq_slice (by omega) hstop
    exact ⟨hstart, hspan, hle, hstop, hslice, hlength⟩
  | noMatch failure =>
    obtain ⟨hle, hindex⟩ := hwithin
    rw [Input.length_ofString] at hindex
    have hreport : (failure.deeper ⟨farthest⟩).index = max failure.index farthest :=
      NoMatch.index_deeper _ _
    constructor
    · show _ ≤ (failure.deeper ⟨farthest⟩).index
      omega
    · show (failure.deeper ⟨farthest⟩).index ≤ _
      omega

namespace Session

variable {grammar : Grammar} {session next : Session}

/-- Whatever a session answers stays inside its text. -/
theorem Serves.evaluate_inside (hs : session.Serves grammar (.ofString text))
    (hbuilt : grammar.Built) (hid : id.index < grammar.arena.nodes.size)
    (h : session.evaluate id start mode = .ok (outcome, next)) : outcome.Inside text start := by
  obtain ⟨same, last, heval, -, hplain⟩ := hs.evaluate hbuilt hid start mode
  rw [h] at heval
  cases heval
  by_cases hstart : start ≤ text.length
  · have hinput : start ≤ (Input.ofString text).length := by
      rw [Input.length_ofString]
      exact hstart
    obtain ⟨inner, farthest, hrun, hreport⟩ := evaluate_plain hbuilt hid hinput mode
    rw [hplain] at hreport
    cases hreport
    refine inside_of_within hstart (evalNode_within hinput hrun) ?_
    rw [← Input.length_ofString]
    exact evalNode_farthest_le hinput hinput hrun
  · -- behind the end of the text the failure is at the end
    unfold Session.evaluate at hplain
    rw [if_pos (by simpa using hstart)] at hplain
    cases hplain
    simp only [Outcome.Inside, Input.length_ofString]
    omega

theorem Serves.parse_inside (hs : session.Serves grammar (.ofString text)) (hbuilt : grammar.Built)
    (start : Nat) (mode : Mode) :
    ∃ outcome next, session.parse start mode = .ok (outcome, next) ∧
      outcome.Inside text start := by
  obtain ⟨outcome, next, hparse, -⟩ := hs.parse hbuilt start mode
  have heval : session.evaluate grammar.root start mode = .ok (outcome, next) := by
    rwa [Session.parse, hs.root_eq] at hparse
  exact ⟨outcome, next, hparse, hs.evaluate_inside hbuilt hbuilt.root_lt heval⟩

theorem Serves.parseRule_inside (hs : session.Serves grammar (.ofString text))
    (hbuilt : grammar.Built) {name : String} (hname : grammar.ruleNode? name = some id)
    (start : Nat) (mode : Mode) :
    ∃ outcome next, session.parseRule name start mode = .ok (outcome, next) ∧
      outcome.Inside text start := by
  obtain ⟨outcome, next, hparse, -⟩ := hs.parseRule hbuilt hname start mode
  have heval : session.evaluate id start mode = .ok (outcome, next) := by
    rwa [Session.parseRule, ruleNode?_congr hs.arena_eq, hname] at hparse
  exact ⟨outcome, next, hparse, hs.evaluate_inside hbuilt (hbuilt.ruleNode?_lt hname) heval⟩

end Session

namespace Grammar

/-- **Outcomes stay inside the text, and all spans are in order.** From any offset, in either mode,
with a table or without, on its own or in a session after any calls, the root and every rule match
inside the text or fail inside it. And an evaluation in which every span is asserted not to end
before it begins, whatever alarm it would raise, ends well and is the evaluation itself. -/
theorem Built.outcomes_inside {grammar : Grammar} (h : grammar.Built) (text : String)
    (calls : List Session.Call) (start : Nat) (mode : Mode) :
    (∃ outcome, grammar.parse text start mode = .ok outcome ∧ outcome.Inside text start) ∧
    (∀ name, if (grammar.ruleNode? name).isSome then
        ∃ outcome, grammar.parseRule name text start mode = .ok outcome ∧
          outcome.Inside text start
      else grammar.parseRule name text start mode = .error (.unknownRule name)) ∧
    (∃ outcome next, ((grammar.session text).calls calls).2.parse start mode =
        .ok (outcome, next) ∧ outcome.Inside text start) ∧
    (∀ name, if (grammar.ruleNode? name).isSome then
        ∃ outcome next, ((grammar.session text).calls calls).2.parseRule name start mode =
          .ok (outcome, next) ∧ outcome.Inside text start
      else ((grammar.session text).calls calls).2.parseRule name start mode =
        .error (.unknownRule name)) ∧
    ∀ (alarm : Fault) (id : NodeId), id.index < grammar.arena.nodes.size → start ≤ text.length →
      ∃ r, Evaluation.run (Evaluation.node grammar.arena (.ofString text) mode id start) start
          ((grammar.session text).calls calls).2.table? = .ok r ∧
        Evaluation.run (Evaluation.assertedNode alarm grammar.arena (.ofString text) mode
            (grammar.arena.depthLimit (text.length - start)) id start) start
          ((grammar.session text).calls calls).2.table? = .ok r := by
  have hfresh := grammar.session_serves text
  have hserves := (hfresh.calls h calls).2
  refine ⟨?_, ?_, hserves.parse_inside h start mode, ?_, ?_⟩
  · obtain ⟨outcome, next, hparse, hinside⟩ := hfresh.parse_inside h start mode
    exact ⟨outcome, by rw [Grammar.parse, hparse]; rfl, hinside⟩
  · intro name
    rw [Grammar.parseRule]
    cases hname : grammar.ruleNode? name with
    | none =>
      rw [hfresh.parseRule_of_none hname]
      rfl
    | some id =>
      obtain ⟨outcome, next, hparse, hinside⟩ := hfresh.parseRule_inside h hname start mode
      exact ⟨outcome, by rw [hparse]; rfl, hinside⟩
  · intro name
    cases hname : grammar.ruleNode? name with
    | none => exact hserves.parseRule_of_none hname start mode
    | some id => exact hserves.parseRule_inside h hname start mode
  · intro alarm id hid hstart
    rw [← Input.length_ofString] at hstart ⊢
    have hends := h.exists_run_evalNode mode start hid hstart (Nat.le_refl _)
    obtain ⟨r, hrun⟩ := exists_run_of_plain hserves.sound hends
    exact ⟨r, hrun, (run_assertedNode alarm hserves.sound hends).trans hrun⟩

/-- The text `aab` has no match for the grammar of the rule `as`, also not from behind its end. -/
theorem onlyAs_outcomes_inside :
    onlyAs.Built ∧
      (∃ outcome, onlyAs.parse "aab" 1 .lexer = .ok outcome ∧ outcome.Inside "aab" 1) ∧
      ∃ outcome next, ((onlyAs.session "aab").calls [.parse 0 .parser, .parse 1 .lexer]).2.parse 7
        .parser = .ok (outcome, next) ∧ outcome.Inside "aab" 7 :=
  ⟨onlyAs_built, (onlyAs_built.outcomes_inside "aab" [] 1 .lexer).1,
    (onlyAs_built.outcomes_inside "aab" [.parse 0 .parser, .parse 1 .lexer] 7 .parser).2.2.1⟩

end Grammar

end Packrat
