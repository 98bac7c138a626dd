import Packrat.Proofs.FarthestFailure
import Packrat.Proofs.MaximalMunch

/-!
# How far a tokenizer got where it stops

Where no token begins, a tokenizer reports how deep its rule failed there: as deep as the deepest
of its alternatives. An alternative may have tried a rule that failed further on and matched in
another way. That failure counts for the outcome of a parse of the same rule from the same offset,
and does not count for the tokenizer.

* `noToken_of_run`: a tokenizer stops where its rule fails.
* `isGreatest_of_run_rule`: **a rule fails as deep as the deepest of its alternatives.**
* `Built.tokenize_noToken`: what a tokenizer reports, and what a parse does.
* `Grammar.optionals`: a grammar for which the two differ.
-/

namespace Packrat

open Evaluation

/-- **A tokenizer stops where its rule fails**, and reports how deep. -/
theorem Tokenizer.noToken_of_run {tokenizer : Tokenizer} {input : Input}
    {pos f g index deepest : Nat}
    (h : (tokensFrom tokenizer input pos : Attempt (Except TokenizerError (List Token))).run f =
      .ok (.error (.noToken index deepest), g)) :
    index < input.length ∧ ∃ t t',
      (Evaluation.rule tokenizer.grammar.arena input .lexer tokenizer.rule index :
        Attempt Resolution).run t = .ok (.noMatch ⟨deepest⟩, t') := by
  induction hleft : input.length - pos using Nat.strong_induction_on generalizing pos f g with
  | _ left ih =>
    by_cases hlt : pos < input.length
    · obtain ⟨resolution, t, hrun, hgoes⟩ := goesOn_of_run hlt h
      cases resolution with
      | noMatch failure =>
        cases hgoes
        exact ⟨hlt, f, t, hrun⟩
      | chosen choice =>
        unfold GoesOn Resolution.toOutcome at hgoes
        simp only at hgoes
        split_ifs at hgoes with hempty
        · cases hgoes
        · obtain ⟨kind, rest, u, hrest, hresult⟩ := hgoes
          cases rest with
          | ok tokens => cases hresult
          | error e =>
            cases hresult
            exact ih _ (by omega) hrest rfl
    · rw [tokensFrom, dif_neg hlt] at h
      cases h

namespace Arena

variable {arena : Arena} {input : Input} {mode : Mode} {id : NodeId} {rid : RuleId} {rule : Rule}
  {pos f f' : Nat}

/-- The node of a rule comes to what the rule is settled to. -/
theorem Yields.eq_of_run_rule {outcome : Outcome} {resolution : Resolution}
    (hnode : arena.node? id = some (.rule rid))
    (h : (Evaluation.rule arena input mode rid pos : Attempt Resolution).run f =
      .ok (resolution, f'))
    (hyields : arena.Yields input mode id pos outcome) : outcome = resolution.toOutcome := by
  obtain ⟨farthest, hrun⟩ := hyields
  unfold Evaluation.node at hrun
  cases hdepth : arena.depthLimit (input.length - pos) with
  | zero =>
    rw [hdepth] at hrun
    cases hrun
  | succ depth =>
    rw [hdepth] at hrun
    obtain ⟨inner, hstep, -⟩ := evalNode_run_eq_ok.1 hrun
    cases hstep with
    | primitive p hother =>
      rw [hnode] at hother
      cases hother
    | sequence children hother _ _ _ =>
      rw [hnode] at hother
      cases hother
    | rule other rule hother hrule found g hbody =>
      rw [hnode] at hother
      cases hother
      unfold Evaluation.rule settleRule at h
      simp only [hrule] at h
      obtain ⟨last, hsettled, -⟩ := settle_run_eq_ok.1 h
      -- the two runs have different limits, which makes no difference
      cases plainBody_unique hbody hsettled
      rfl

/-- **A rule fails as deep as the deepest of its alternatives**, and no less deep than where it is
tried. -/
theorem isGreatest_of_run_rule {deepest : Nat} (hrule : arena.rule? rid = some rule)
    (h : (Evaluation.rule arena input .lexer rid pos : Attempt Resolution).run f =
      .ok (.noMatch ⟨deepest⟩, f')) :
    IsGreatest {index | index = pos ∨ ∃ alternative ∈ rule.alternatives,
      arena.Yields input .lexer alternative pos (.noMatchAt index)} deepest := by
  unfold Evaluation.rule settleRule at h
  simp only [hrule] at h
  obtain ⟨inner, hbody, -⟩ := settle_run_eq_ok.1 h
  obtain ⟨outcomes, htried, hresolution⟩ := run_resolve_eq_ok.1 hbody
  obtain ⟨-, hfrom, hle, hall⟩ := ofOutcomes_eq_noMatch hresolution.symm
  constructor
  · rcases hfrom with hfrom | hmem
    · exact .inl (congrArg NoMatch.index hfrom)
    · exact .inr (forall_of_run_triedOutcomes
        (P := fun outcome => ∃ a ∈ rule.alternatives, arena.Yields input .lexer a pos outcome)
        (fun a ha _ _ _ hrun => ⟨a, ha, yields_of_run hrun⟩) htried _ hmem)
  · rintro index (rfl | ⟨alternative, ha, hyields⟩)
    · exact hle
    · obtain ⟨t, outcome, t', hrun, hmem⟩ := exists_run_of_run_triedOutcomes htried alternative ha
      rw [← hyields.unique (yields_of_run hrun)] at hmem
      obtain ⟨other, hother, hdeepest⟩ := hall _ hmem
      cases hother
      exact hdeepest

end Arena

namespace Grammar

/-- **What a tokenizer reports where no token begins** is the failure of its rule there: the
deepest failure of an alternative, or the offset itself if that is deeper. A parse of the same rule
from the same offset fails as well. It reports the greatest offset at which anything failed, which
is at least as far. -/
theorem Built.tokenize_noToken {grammar : Grammar} (h : grammar.Built) {name text : String}
    {tokenizer : Tokenizer} (htokenizer : grammar.tokenizer name = .ok tokenizer)
    {index deepest : Nat}
    (hstop : tokenizer.tokenize text = .error (.tokenizer (.noToken index deepest))) :
    ∃ rule farthest, rule ∈ grammar.arena.rules ∧ rule.name = name ∧
      grammar.arena.Yields (.ofString text) .lexer rule.node index (.noMatchAt deepest) ∧
      IsGreatest {offset | offset = index ∨ ∃ alternative ∈ rule.alternatives,
        grammar.arena.Yields (.ofString text) .lexer alternative index (.noMatchAt offset)}
          deepest ∧
      grammar.parseRule name text index .lexer = .ok (.noMatchAt farthest) ∧
      FarthestFailure grammar.arena (.ofString text) .lexer rule.node index farthest ∧
      deepest ≤ farthest := by
  obtain ⟨id, rule, hnamed, hrule, rfl⟩ := (Tokenizer.tokenizer_eq_ok h).1 htokenizer
  have hwf := Tokenizer.wellFormed_of_tokenizer h htokenizer
  obtain ⟨result, f, hrun, htokenize⟩ := Tokenizer.exists_run_tokenize h hwf text
  obtain rfl : result = .error (.noToken index deepest) := by
    rw [hstop] at htokenize
    cases result <;> cases htokenize
    rfl
  obtain ⟨hindex, t, t', hsettled⟩ := Tokenizer.noToken_of_run hrun
  have hnode : grammar.ruleNode? name = some rule.node := by simp [ruleNode?, hnamed, hrule]
  have hid := h.wellFormed.node_lt hrule
  obtain ⟨outcome, farthest, hplain, hanswer⟩ :=
    Session.evaluate_plain h hid (Nat.le_of_lt hindex) .lexer
  have hyields : grammar.arena.Yields (.ofString text) .lexer rule.node index outcome :=
    ⟨farthest, hplain⟩
  obtain rfl : outcome = .noMatchAt deepest :=
    hyields.eq_of_run_rule (h.wellFormed.rule_node id rule hrule) hsettled
  -- a session of its own answers with the farthest failure, with a table or without
  obtain ⟨next, hparse⟩ := (grammar.session_serves text).evaluate_of_plain h hid hanswer
  have hparsed : (grammar.session text).parseRule name index .lexer =
      .ok (.noMatchAt ((NoMatch.mk deepest).deeper ⟨farthest⟩).index, next) := by
    rw [Session.parseRule, show (grammar.session text).grammar = grammar from rfl, hnode]
    exact hparse
  obtain ⟨node, hnode', hfarthest⟩ := farthestFailure_of_parseRule (grammar.session_serves text) h
    (Nat.le_of_lt hindex) hparsed
  rw [hnode] at hnode'
  cases hnode'
  obtain ⟨other, hother, hname⟩ := (h.wellFormed.names name id).1 hnamed
  rw [hrule] at hother
  cases hother
  refine ⟨rule, _, Array.mem_of_getElem? hrule, hname, hyields,
    Arena.isGreatest_of_run_rule hrule hsettled, congrArg (Except.map Prod.fst) hparsed, hfarthest,
    ?_⟩
  rw [NoMatch.index_deeper]
  exact Nat.le_max_left deepest farthest

/-- Tokens `x` and `abx`: the rule `token = option "x"` with the rule `option = "a" "b" | ""`. -/
def optionals : Grammar where
  arena :=
    { nodes := #[.rule 0, .rule 1, .primitive (.ofString "a"), .primitive (.ofString "b"),
        .sequence [⟨2, 0⟩, ⟨3, 0⟩], .primitive (.ofString ""), .primitive (.ofString "x"),
        .sequence [⟨1, 0⟩, ⟨6, 0⟩]]
      rules := #[⟨"token", ⟨0, 0⟩, [⟨7, 0⟩]⟩, ⟨"option", ⟨1, 0⟩, [⟨4, 0⟩, ⟨5, 0⟩]⟩]
      names := [("option", 1), ("token", 0)] }
  root := ⟨0, 0⟩
  config := {}

theorem optionals_built : optionals.Built :=
  ⟨0, [.rule "token", .rule "option", .literal "a", .literal "b", .sequence [⟨2, 0⟩, ⟨3, 0⟩],
    .literal "", .bind ⟨1, 0⟩ [⟨4, 0⟩, ⟨5, 0⟩], .literal "x", .sequence [⟨1, 0⟩, ⟨6, 0⟩],
    .bind ⟨0, 0⟩ [⟨7, 0⟩]], ⟨0, 0⟩, {}, by decide +kernel⟩

/-- The tokenizer of the rule `token` with the kind of its only alternative. -/
def optionalsTokenizer : Tokenizer := ⟨optionals, 0, #["token#0"]⟩

theorem optionals_tokenize_noToken :
    optionals.Built ∧ optionals.tokenizer "token" = .ok optionalsTokenizer ∧
      optionalsTokenizer.tokenize "a" = .error (.tokenizer (.noToken 0 0)) ∧
      optionals.arena.Yields (.ofString "a") .lexer ⟨0, 0⟩ 0 (.noMatchAt 0) ∧
      FarthestFailure optionals.arena (.ofString "a") .lexer ⟨0, 0⟩ 0 1 := by
  have htokenizer : optionals.tokenizer "token" = .ok optionalsTokenizer := by decide +kernel
  have hstop : optionalsTokenizer.tokenize "a" = .error (.tokenizer (.noToken 0 0)) := by
    decide +kernel
  have hparsed : optionals.parseRule "token" "a" 0 .lexer = .ok (.noMatchAt 1) := by
    decide +kernel
  obtain ⟨rule, farthest, hmem, hname, hyields, -, hparse, hfarthest, -⟩ :=
    optionals_built.tokenize_noToken htokenizer hstop
  obtain rfl : farthest = 1 := by
    rw [hparsed] at hparse
    cases hparse
    rfl
  obtain rfl | rfl : rule = ⟨"token", ⟨0, 0⟩, [⟨7, 0⟩]⟩ ∨
      rule = ⟨"option", ⟨1, 0⟩, [⟨4, 0⟩, ⟨5, 0⟩]⟩ := by
    simpa [optionals] using hmem
  · exact ⟨optionals_built, htokenizer, hstop, hyields, hfarthest⟩
  · exact absurd hname (by decide)

/-- **A tokenizer may report less than a parse**: in the text `a` the rule `option` fails at the
end, where it misses the `b`, and then matches nothing. The tokenizer reports the missing `x` at
the beginning, and a parse reports the missing `b`. -/
theorem deepest_ne_farthest :
    optionals.Built ∧ optionals.tokenizer "token" = .ok optionalsTokenizer ∧
      optionalsTokenizer.tokenize "a" = .error (.tokenizer (.noToken 0 0)) ∧
      optionals.parseRule "token" "a" 0 .lexer = .ok (.noMatchAt 1) :=
  ⟨optionals_built, by decide +kernel, by decide +kernel, by decide +kernel⟩

end Grammar

end Packrat
