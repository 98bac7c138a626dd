import Packrat.Proofs.Shifting

/-!
# Only the rest of the text matters

A text is put behind another one, and matched from as far behind the seam. Everything then goes as
it does in the text alone, with all offsets higher by the length of what was put in front.

* `Serves.evaluate_shift`: a call goes so, whatever was called before.
* `tokensFrom_append_run`: the tokens behind some of them are those from there on.
* `Built.translation_invariant`: **matching and tokenizing depend on the rest of the text only.**
-/

namespace Packrat

open Evaluation

theorem Reached.report_shift (n : Nat) (outcome : Outcome) (farthest : Nat) :
    (Reached.mk (outcome.shift n) (n + farthest)).report =
      (Reached.mk outcome farthest).report.shift n := by
  cases outcome with
  | matched span => rfl
  | noMatch failure =>
    show Outcome.noMatch ((failure.shift n).deeper (NoMatch.shift n ⟨farthest⟩)) = _
    rw [← NoMatch.shift_deeper]
    rfl

namespace Session

variable {grammar : Grammar} {n : Nat} {input whole : Input} {id : NodeId}
  {session session' : Session}

/-- Without tables, and wherever a match is begun. -/
theorem evaluate_plain_shift (hbuilt : grammar.Built) (h : Input.Behind n input whole)
    (hid : id.index < grammar.arena.nodes.size) (start : Nat) (mode : Mode) :
    ∃ outcome,
      (Session.mk grammar input none).evaluate id start mode =
        .ok (outcome, ⟨grammar, input, none⟩) ∧
      (Session.mk grammar whole none).evaluate id (n + start) mode =
        .ok (outcome.shift n, ⟨grammar, whole, none⟩) := by
  have hlength := h.length_eq
  by_cases hstart : start ≤ input.length
  · obtain ⟨outcome, farthest, hrun, hplain⟩ := evaluate_plain hbuilt hid hstart mode
    refine ⟨_, hplain, ?_⟩
    obtain ⟨outcome', farthest', hrun', hwhole⟩ :=
      evaluate_plain hbuilt hid (show n + start ≤ whole.length by omega) mode
    -- as much of the text is left, so the limits on the depth are the same
    have hleft : whole.length - (n + start) = input.length - start := by omega
    rw [hleft, evalNode_shifts h, hrun] at hrun'
    cases hrun'
    rw [hwhole, Reached.report_shift]
  · refine ⟨.noMatchAt input.length, ?_, ?_⟩
    · unfold evaluate
      rw [if_pos (by simpa using hstart)]
    · unfold evaluate
      rw [if_pos (show n + start > whole.length by omega)]
      simp only [hlength]
      rfl

/-- **A call goes as it does in the text alone**, whatever was called before. -/
theorem Serves.evaluate_shift (hs : session.Serves grammar input)
    (hs' : session'.Serves grammar whole) (hbuilt : grammar.Built) (h : Input.Behind n input whole)
    (hid : id.index < grammar.arena.nodes.size) (start : Nat) (mode : Mode) :
    ∃ outcome next next', session.evaluate id start mode = .ok (outcome, next) ∧
      session'.evaluate id (n + start) mode = .ok (outcome.shift n, next') := by
  obtain ⟨outcome, hplain, hshift⟩ := evaluate_plain_shift hbuilt h hid start mode
  obtain ⟨next, heval⟩ := hs.evaluate_of_plain hbuilt hid hplain
  obtain ⟨next', heval'⟩ := hs'.evaluate_of_plain hbuilt hid hshift
  exact ⟨outcome, next, next', heval, heval'⟩

theorem Serves.parse_shift (hs : session.Serves grammar input)
    (hs' : session'.Serves grammar whole) (hbuilt : grammar.Built) (h : Input.Behind n input whole)
    (start : Nat) (mode : Mode) :
    ∃ outcome next next', session.parse start mode = .ok (outcome, next) ∧
      session'.parse (n + start) mode = .ok (outcome.shift n, next') := by
  unfold Session.parse
  rw [hs.root_eq, hs'.root_eq]
  exact hs.evaluate_shift hs' hbuilt h hbuilt.root_lt start mode

theorem Serves.parseRule_shift (hs : session.Serves grammar input)
    (hs' : session'.Serves grammar whole) (hbuilt : grammar.Built) (h : Input.Behind n input whole)
    {name : String} (hname : grammar.ruleNode? name = some id) (start : Nat) (mode : Mode) :
    ∃ outcome next next', session.parseRule name start mode = .ok (outcome, next) ∧
      session'.parseRule name (n + start) mode = .ok (outcome.shift n, next') := by
  unfold Session.parseRule
  rw [ruleNode?_congr hs.arena_eq, ruleNode?_congr hs'.arena_eq, hname]
  exact hs.evaluate_shift hs' hbuilt h (hbuilt.ruleNode?_lt hname) start mode

end Session

namespace Tokenizer

variable {tokenizer : Tokenizer} {n pos f f' : Nat} {input whole : Input} {token : Token}
  {front rest : List Token}

/-- A rule matches from the offset on at which it is settled. -/
theorem ordered_of_run_rule {arena : Arena} {mode : Mode} {id : RuleId} {resolution : Resolution}
    (h : (Evaluation.rule arena input mode id pos : Attempt Resolution).run f =
      .ok (resolution, f')) : resolution.toOutcome.Ordered pos pos := by
  unfold Evaluation.rule settleRule at h
  split at h
  · cases h
  · obtain ⟨inner, hbody, -⟩ := settle_run_eq_ok.1 h
    exact plainBody_ordered (fun _ _ _ _ _ h => evalNode_ordered h) hbody

/-- A token begins where it is looked for, and the others follow it. -/
theorem tokensFrom_cons_run
    (h : (tokensFrom tokenizer input pos : Attempt (Except TokenizerError (List Token))).run f =
      .ok (.ok (token :: rest), f')) :
    token.span.start = pos ∧ ∃ g g',
      (tokensFrom tokenizer input token.span.stop :
        Attempt (Except TokenizerError (List Token))).run g = .ok (.ok rest, g') := by
  have hlt : pos < input.length := by
    by_contra hend
    rw [tokensFrom, dif_neg hend] at h
    cases h
  obtain ⟨resolution, t, hsettle, hgoes⟩ := goesOn_of_run hlt h
  have hordered := ordered_of_run_rule hsettle
  generalize resolution.toOutcome = outcome at hgoes hordered
  cases outcome with
  | noMatch failure => cases hgoes
  | matched span =>
    simp only [GoesOn] at hgoes
    split at hgoes
    · cases hgoes
    · obtain ⟨kind, others, g', hothers, hresult⟩ := hgoes
      cases others with
      | error e => cases hresult
      | ok tokens =>
        cases hresult
        exact ⟨hordered.1, t, g', hothers⟩

/-- **The tokens behind some of them are those from there on.** -/
theorem tokensFrom_append_run
    (h : (tokensFrom tokenizer input pos : Attempt (Except TokenizerError (List Token))).run f =
      .ok (.ok (front ++ token :: rest), f')) :
    ∃ g g', (tokensFrom tokenizer input token.span.start :
      Attempt (Except TokenizerError (List Token))).run g = .ok (.ok (token :: rest), g') := by
  induction front generalizing pos f f' with
  | nil =>
    obtain ⟨hstart, -⟩ := tokensFrom_cons_run h
    rw [hstart]
    exact ⟨f, f', h⟩
  | cons first front ih =>
    obtain ⟨-, g, g', hrest⟩ := tokensFrom_cons_run h
    exact ih hrest

theorem exists_of_shiftTokens_eq {result : Except TokenizerError (List Token)}
    {shifted : List Token} (h : shiftTokens n result = .ok shifted) :
    ∃ tokens, result = .ok tokens ∧ shifted = tokens.map (Token.shift n) := by
  cases result with
  | error e => cases h
  | ok tokens =>
    cases h
    exact ⟨tokens, rfl, rfl⟩

/-- **The tokens from the seam on are those of the text alone.** -/
theorem tokenize_of_append (hbuilt : tokenizer.grammar.Built) (hwf : tokenizer.WellFormed)
    {pre text : String} (h : tokenizer.tokenize (pre ++ text) = .ok (front ++ token :: rest))
    (hseam : token.span.start = pre.length) :
    ∃ tokens, tokenizer.tokenize text = .ok tokens ∧
      token :: rest = tokens.map (Token.shift pre.length) := by
  obtain ⟨result, f, hwhole, hanswer⟩ := exists_run_tokenize hbuilt hwf (pre ++ text)
  obtain ⟨alone, f', htext, halone⟩ := exists_run_tokenize hbuilt hwf text
  rw [hanswer] at h
  cases result with
  | error e => cases h
  | ok tokens =>
    cases h
    obtain ⟨g, g', hfrom⟩ := tokensFrom_append_run hwhole
    rw [hseam] at hfrom
    -- the cell at the seam is not the one of the text alone, but that makes no difference
    obtain ⟨reach, hcomes, -⟩ := (tokensFrom_steady tokenizer _ pre.length).comes hfrom
    have hshift := tokensFrom_shifts (Input.behind_ofString pre text) tokenizer 0 0
    rw [Nat.add_zero, hcomes, htext] at hshift
    have hsame : shiftTokens pre.length alone = .ok (token :: rest) :=
      (congrArg Prod.fst (Except.ok.inj hshift)).symm
    obtain ⟨tokens, rfl, htokens⟩ := exists_of_shiftTokens_eq hsame
    exact ⟨tokens, halone, htokens⟩

end Tokenizer

namespace Grammar

/-- **Matching and tokenizing depend on the rest of the text only.** A text is put behind another
one. Then the root and every rule match, from so far behind the seam and in either mode, as they
do in the text alone, with all offsets higher by the length of what is in front: with a table or
without, on their own or in sessions after any calls. And where the whole is cut into tokens one of
which begins at the seam, the text alone is cut into the tokens from that one on. -/
theorem Built.translation_invariant {grammar : Grammar} (h : grammar.Built) (pre text : String) :
    (∀ start mode, ∃ outcome, grammar.parse text start mode = .ok outcome ∧
      grammar.parse (pre ++ text) (pre.length + start) mode = .ok (outcome.shift pre.length)) ∧
    (∀ name start mode, if (grammar.ruleNode? name).isSome then
        ∃ outcome, grammar.parseRule name text start mode = .ok outcome ∧
          grammar.parseRule name (pre ++ text) (pre.length + start) mode =
            .ok (outcome.shift pre.length)
      else grammar.parseRule name text start mode = .error (.unknownRule name) ∧
        grammar.parseRule name (pre ++ text) (pre.length + start) mode =
          .error (.unknownRule name)) ∧
    (∀ calls calls' start mode, ∃ outcome next next',
      ((grammar.session text).calls calls).2.parse start mode = .ok (outcome, next) ∧
        ((grammar.session (pre ++ text)).calls calls').2.parse (pre.length + start) mode =
          .ok (outcome.shift pre.length, next')) ∧
    (∀ calls calls' name start mode, (grammar.ruleNode? name).isSome →
      ∃ outcome next next',
        ((grammar.session text).calls calls).2.parseRule name start mode = .ok (outcome, next) ∧
          ((grammar.session (pre ++ text)).calls calls').2.parseRule name (pre.length + start)
            mode = .ok (outcome.shift pre.length, next')) ∧
    ∀ name tokenizer, grammar.tokenizer name = .ok tokenizer → ∀ front token rest,
      tokenizer.tokenize (pre ++ text) = .ok (front ++ token :: rest) →
      token.span.start = pre.length →
      ∃ tokens, tokenizer.tokenize text = .ok tokens ∧
        token :: rest = tokens.map (Token.shift pre.length) := by
  have hbehind := Input.behind_ofString pre text
  have hserves := grammar.session_serves text
  have hserves' := grammar.session_serves (pre ++ text)
  refine ⟨?_, ?_, ?_, ?_, ?_⟩
  · intro start mode
    obtain ⟨outcome, next, next', hparse, hparse'⟩ :=
      hserves.parse_shift hserves' h hbehind start mode
    exact ⟨outcome, by rw [Grammar.parse, hparse]; rfl, by rw [Grammar.parse, hparse']; rfl⟩
  · intro name start mode
    rw [Grammar.parseRule, Grammar.parseRule]
    cases hname : grammar.ruleNode? name with
    | none =>
      rw [hserves.parseRule_of_none hname, hserves'.parseRule_of_none hname]
      exact ⟨rfl, rfl⟩
    | some id =>
      obtain ⟨outcome, next, next', hparse, hparse'⟩ :=
        hserves.parseRule_shift hserves' h hbehind hname start mode
      exact ⟨outcome, by rw [hparse]; rfl, by rw [hparse']; rfl⟩
  · intro calls calls' start mode
    exact (hserves.calls h calls).2.parse_shift (hserves'.calls h calls').2 h hbehind start mode
  · intro calls calls' name start mode hname
    obtain ⟨id, hid⟩ := Option.isSome_iff_exists.1 hname
    exact (hserves.calls h calls).2.parseRule_shift (hserves'.calls h calls').2 h hbehind hid
      start mode
  · intro name tokenizer htokenizer front token rest htokenize hseam
    have hwf := Tokenizer.wellFormed_of_tokenizer h htokenizer
    have hbuilt : tokenizer.grammar.Built := by
      obtain ⟨id, rule, -, -, rfl⟩ := (Tokenizer.tokenizer_eq_ok h).1 htokenizer
      exact h
    exact Tokenizer.tokenize_of_append hbuilt hwf htokenize hseam

/-- Tokens of the rule `token = "a" | "ab"`. -/
def pairs : Grammar where
  arena :=
    { nodes := #[.rule 0, .primitive (.ofString "a"), .primitive (.ofString "ab")]
      rules := #[⟨"token", ⟨0, 0⟩, [⟨1, 0⟩, ⟨2, 0⟩]⟩]
      names := [("token", 0)] }
  root := ⟨0, 0⟩
  config := {}

theorem pairs_built : pairs.Built :=
  ⟨0, [.rule "token", .literal "a", .literal "ab", .bind ⟨0, 0⟩ [⟨1, 0⟩, ⟨2, 0⟩]], ⟨0, 0⟩, {},
    by decide +kernel⟩

/-- The text `aba` behind another `a`. -/
theorem pairs_translation_invariant :
    pairs.Built ∧
      (∃ outcome, pairs.parse "aba" 2 .parser = .ok outcome ∧
        pairs.parse ("a" ++ "aba") ("a".length + 2) .parser = .ok (outcome.shift "a".length)) ∧
      ∃ tokenizer tokens, pairs.tokenizer "token" = .ok tokenizer ∧
        tokenizer.tokenize ("a" ++ "aba") = .ok ([⟨"token#0", ⟨0, 1⟩, "a"⟩] ++
          ⟨"token#1", ⟨1, 3⟩, "ab"⟩ :: [⟨"token#0", ⟨3, 4⟩, "a"⟩]) ∧
        tokenizer.tokenize "aba" = .ok tokens ∧
        ⟨"token#1", ⟨1, 3⟩, "ab"⟩ :: [⟨"token#0", ⟨3, 4⟩, "a"⟩] =
          tokens.map (Token.shift "a".length) := by
  obtain ⟨hparse, -, -, -, htokens⟩ := pairs_built.translation_invariant "a" "aba"
  obtain ⟨tokenizer, htokenizer⟩ : ∃ tokenizer, pairs.tokenizer "token" = .ok tokenizer :=
    ⟨_, rfl⟩
  have hanswer : (pairs.tokenizer "token").map (·.tokenize ("a" ++ "aba")) =
      .ok (.ok ([⟨"token#0", ⟨0, 1⟩, "a"⟩] ++
        ⟨"token#1", ⟨1, 3⟩, "ab"⟩ :: [⟨"token#0", ⟨3, 4⟩, "a"⟩])) := by decide +kernel
  rw [htokenizer] at hanswer
  have htokenize := Except.ok.inj hanswer
  obtain ⟨tokens, halone, hshift⟩ :=
    htokens "token" tokenizer htokenizer _ _ _ htokenize (by decide)
  exact ⟨pairs_built, hparse 2 .parser, tokenizer, tokens, htokenizer, htokenize, halone, hshift⟩

end Grammar

end Packrat
