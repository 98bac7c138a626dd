import Packrat.Proofs.ReorderedSessions

/-!
# The order of alternatives in lexer mode

In lexer mode the order of alternatives decides between matches that reach equally far, and nothing
else. With another order a builder is refused for the same reason, or makes a grammar that matches
the same, asks its tables for the same, and cuts texts into the same tokens, up to their kinds.

* `Grammar.LexesAlike`: what two grammars have in common then.
* `Tokenizer.tokensFrom_reordered`: **the tokens are the same**, but for their kinds.
* `Builder.build_reordered`: **in lexer mode the order of alternatives only decides ties.**
-/

namespace Packrat

open Evaluation

/-- The stretch of the text that a token is made of, whatever its kind. -/
def Token.stretch (token : Token) : Span × String := (token.span, token.text)

/-- Two grammars match alike in lexer mode, on their own and in sessions with tables, and cut texts
into the same stretches. -/
structure Grammar.LexesAlike (grammar grammar' : Grammar) : Prop where
  parse : ∀ text start, ∃ outcome, grammar.parse text start .lexer = .ok outcome ∧
    grammar'.parse text start .lexer = .ok outcome
  parseRule : ∀ name text start, if (grammar.ruleNode? name).isSome then
      ∃ outcome, grammar.parseRule name text start .lexer = .ok outcome ∧
        grammar'.parseRule name text start .lexer = .ok outcome
    else grammar.parseRule name text start .lexer = .error (.unknownRule name) ∧
      grammar'.parseRule name text start .lexer = .error (.unknownRule name)
  /-- Calls on sessions are answered alike, whether there are tables or not. -/
  answers : ∀ text calls, (∀ call ∈ calls, Session.Call.mode? call ≠ some .parser) →
    ((grammar.session text).calls calls).1 = ((grammar'.session text).calls calls).1
  /-- After the same calls tables have equally many entries, and were hit equally often. -/
  table : grammar.config.memoize = true → ∀ text calls,
    (∀ call ∈ calls, Session.Call.mode? call ≠ some .parser) →
      ∃ table table', ((grammar.session text).calls calls).2.table? = some table ∧
        ((grammar'.session text).calls calls).2.table? = some table' ∧
        table.size = table'.size ∧ table.hits = table'.hits
  /-- Texts are cut into the same stretches, or cannot be cut for the same reason. -/
  tokenize : ∀ name, if (grammar.ruleNode? name).isSome then
      ∃ tokenizer tokenizer', grammar.tokenizer name = .ok tokenizer ∧
        grammar'.tokenizer name = .ok tokenizer' ∧
        ∀ text, ∃ stretches : Except TokenizerError (List (Span × String)),
          (tokenizer.tokenize text).map (List.map Token.stretch) =
              stretches.mapError Error.tokenizer ∧
            (tokenizer'.tokenize text).map (List.map Token.stretch) =
              stretches.mapError Error.tokenizer
    else grammar.tokenizer name = .error (.unknownRule name) ∧
      grammar'.tokenizer name = .error (.unknownRule name)

namespace Tokenizer

variable {tokenizer tokenizer' : Tokenizer} {input : Input}
  {result result' : Except TokenizerError (List Token)} {f g g' pos : Nat}

theorem map_stretch_cons (token : Token) (rest : Except TokenizerError (List Token)) :
    (rest.map (token :: ·)).map (List.map Token.stretch) =
      (rest.map (List.map Token.stretch)).map (token.stretch :: ·) := by
  cases rest <;> rfl

/-- **The tokens are the same, but for their kinds**, or a text cannot be cut for the same
reason. -/
theorem tokensFrom_reordered (h : tokenizer.grammar.arena.Reordered tokenizer'.grammar.arena)
    (hrule : tokenizer.rule = tokenizer'.rule)
    (hrun : (tokensFrom tokenizer input pos :
      Attempt (Except TokenizerError (List Token))).run f = .ok (result, g))
    (hrun' : (tokensFrom tokenizer' input pos :
      Attempt (Except TokenizerError (List Token))).run f = .ok (result', g')) :
    result.map (List.map Token.stretch) = result'.map (List.map Token.stretch) := by
  induction hleft : input.length - pos using Nat.strong_induction_on
    generalizing pos f g g' result result' with
  | _ left ih =>
    by_cases hlt : pos < input.length
    · obtain ⟨resolution, t, hsettle, hgoes⟩ := goesOn_of_run hlt hrun
      obtain ⟨resolution', t', hsettle', hgoes'⟩ := goesOn_of_run hlt hrun'
      -- the rule is settled with the same outcome, on whichever alternative
      obtain ⟨other, hother, houtcome⟩ := h.run_rule hsettle
      rw [← hrule, hother] at hsettle'
      cases hsettle'
      rw [houtcome] at hgoes'
      generalize resolution.toOutcome = outcome at hgoes hgoes'
      cases outcome with
      | noMatch failure =>
        cases hgoes
        cases hgoes'
        rfl
      | matched span =>
        simp only [GoesOn] at hgoes hgoes'
        split at hgoes
        · rename_i hempty
          rw [if_pos hempty] at hgoes'
          rw [hgoes, hgoes']
        · rename_i hprogress
          rw [if_neg hprogress] at hgoes'
          obtain ⟨kind, rest, u, hrest, rfl⟩ := hgoes
          obtain ⟨kind', rest', u', hrest', rfl⟩ := hgoes'
          have hsame := ih _ (by omega) hrest hrest' rfl
          rw [map_stretch_cons, map_stretch_cons, hsame]
          rfl
    · rw [tokensFrom, dif_neg hlt] at hrun hrun'
      cases hrun
      cases hrun'
      rfl

/-- Texts are cut into the same stretches, or not for the same reason. -/
theorem tokenize_reordered (hbuilt : tokenizer.grammar.Built)
    (hbuilt' : tokenizer'.grammar.Built) (hwf : tokenizer.WellFormed)
    (hwf' : tokenizer'.WellFormed)
    (h : tokenizer.grammar.arena.Reordered tokenizer'.grammar.arena)
    (hrule : tokenizer.rule = tokenizer'.rule) (text : String) :
    ∃ stretches : Except TokenizerError (List (Span × String)),
      (tokenizer.tokenize text).map (List.map Token.stretch) =
          stretches.mapError Error.tokenizer ∧
        (tokenizer'.tokenize text).map (List.map Token.stretch) =
          stretches.mapError Error.tokenizer := by
  obtain ⟨result, g, hrun, hanswer⟩ := exists_run_tokenize hbuilt hwf text
  obtain ⟨result', g', hrun', hanswer'⟩ := exists_run_tokenize hbuilt' hwf' text
  have hsame := tokensFrom_reordered h hrule hrun hrun'
  have hcommute : ∀ result : Except TokenizerError (List Token),
      (result.mapError Error.tokenizer).map (List.map Token.stretch) =
        (result.map (List.map Token.stretch)).mapError Error.tokenizer := by
    intro result
    cases result <;> rfl
  refine ⟨result.map (List.map Token.stretch), ?_, ?_⟩
  · rw [hanswer, hcommute]
  · rw [hanswer', hcommute, hsame]

end Tokenizer

namespace Grammar

variable {grammar grammar' : Grammar}

/-- **Grammars that differ in the order of alternatives lex alike.** -/
theorem Reordered.lexesAlike (hre : grammar.Reordered grammar') (h : grammar.Built)
    (h' : grammar'.Built) : grammar.LexesAlike grammar' := by
  have hserves := grammar.session_serves
  have hserves' := grammar'.session_serves
  constructor
  · intro text start
    obtain ⟨outcome, next, next', hparse, hparse'⟩ :=
      hre.parse h h' (hserves text) (hserves' text) start
    exact ⟨outcome, by rw [Grammar.parse, hparse]; rfl, by rw [Grammar.parse, hparse']; rfl⟩
  · intro name text start
    have hrule := hre.parseRule h h' (hserves text) (hserves' text) name start
    rw [Grammar.parseRule, Grammar.parseRule]
    split at hrule
    · rename_i hname
      rw [if_pos hname]
      obtain ⟨outcome, next, next', hparse, hparse'⟩ := hrule
      exact ⟨outcome, by rw [hparse]; rfl, by rw [hparse']; rfl⟩
    · rename_i hname
      rw [if_neg hname, hrule.1, hrule.2]
      exact ⟨rfl, rfl⟩
  · intro text calls hmodes
    exact hre.calls_answers h h' (hserves text) (hserves' text) hmodes
  · intro hmemo text calls hmodes
    have hmemo' : grammar'.config.memoize = true := by
      rw [← hre.config_eq]
      exact hmemo
    have hlast : ∀ call ∈ calls.rtakeWhile (· ≠ .clear), Session.Call.mode? call ≠ some .parser :=
      fun call hcall => hmodes call ((List.rtakeWhile_suffix _ calls).subset hcall)
    obtain ⟨table, hkept, htable⟩ := h.exists_kept_calls hmemo text calls
    obtain ⟨table', hkept', htable'⟩ := h'.exists_kept_calls hmemo' text calls
    have hmem := AuditedSession.Kept.mem_reordered hre h h' hlast hkept hkept'
    exact ⟨table, table', htable, htable', hkept.inOrder.size_congr hkept'.inOrder hmem,
      AuditedSession.Kept.hits_reordered hre h h' hlast hkept hkept'⟩
  · intro name
    have hnamed := hre.arena.ruleNamed?_eq h.wellFormed h'.wellFormed name
    cases hid : grammar.arena.ruleNamed? name with
    | none =>
      rw [if_neg (by simp [ruleNode?, hid])]
      unfold Grammar.tokenizer
      rw [← hnamed, hid]
      exact ⟨rfl, rfl⟩
    | some id =>
      obtain ⟨rule, hrule, -⟩ := (h.wellFormed.names name id).1 hid
      obtain ⟨rule', hrule', -⟩ := (h'.wellFormed.names name id).1 (hnamed ▸ hid)
      rw [if_pos (by simp [ruleNode?, hid, hrule])]
      have htokenizer := (Tokenizer.tokenizer_eq_ok h).2 ⟨id, rule, hid, hrule, rfl⟩
      have htokenizer' := (Tokenizer.tokenizer_eq_ok h').2 ⟨id, rule', hnamed ▸ hid, hrule', rfl⟩
      have hwf := Tokenizer.wellFormed_of_tokenizer h htokenizer
      have hwf' := Tokenizer.wellFormed_of_tokenizer h' htokenizer'
      exact ⟨_, _, htokenizer, htokenizer',
        Tokenizer.tokenize_reordered h h' hwf hwf' hre.arena rfl⟩

end Grammar

namespace Builder

variable {tag tag' : Nat} {operations operations' : List Operation} {issued issued' : List NodeId}
  {builder builder' : Builder} {root root' : NodeId}

/-- **In lexer mode the order of alternatives only decides ties.** Let two builders, after any
steps, differ in nothing but the order in which their rules list their alternatives. Either both
are refused for the same reason, with the same cycle if it is for one, or both make a grammar. In
lexer mode these match the same from every offset of every text, as a whole and for every rule;
sessions with tables end with equally many entries and hits after the same calls; and tokenizers
make the same tokens, up to their kinds, or stop with the same error. -/
theorem build_reordered (hrun : (new tag).run operations = (issued, builder))
    (hrun' : (new tag').run operations' = (issued', builder'))
    (hre : builder.Reordered builder') (hplace : root.index = root'.index)
    (hissued : root ∈ issued ↔ root' ∈ issued') (config : Config) :
    (∃ e, builder.build root config = .error e ∧ builder'.build root' config = .error e) ∨
      ∃ grammar grammar', builder.build root config = .ok grammar ∧
        builder'.build root' config = .ok grammar' ∧ grammar.LexesAlike grammar' := by
  obtain rfl : builder = ((new tag).run operations).2 := by rw [hrun]
  obtain rfl : builder' = ((new tag').run operations').2 := by rw [hrun']
  obtain rfl : issued = ((new tag).run operations).1 := by rw [hrun]
  obtain rfl : issued' = ((new tag').run operations').1 := by rw [hrun']
  rw [← owns_run_new, ← owns_run_new] at hissued
  obtain herror | ⟨hbuild, hbuild'⟩ := hre.build_eq_or hplace hissued config
  · exact .inl herror
  · refine .inr ⟨_, _, hbuild, hbuild', ?_⟩
    have hgrammars : Grammar.Reordered ⟨((new tag).run operations).2.frozen, root, config⟩
        ⟨((new tag').run operations').2.frozen, root', config⟩ := ⟨hre.frozen, hplace, rfl⟩
    exact hgrammars.lexesAlike ⟨tag, operations, root, config, hbuild⟩
      ⟨tag', operations', root', config, hbuild'⟩

/-- A builder of the rule `token` with the literals `"a"` and `"ab"` as alternatives, in some
order. -/
def tokenBuilder (tag : Nat) (alternatives : List NodeId) : Builder where
  tag := tag
  nodes := #[.rule 0, .primitive (.ofString "a"), .primitive (.ofString "ab")]
  rules := #[⟨"token", ⟨0, tag⟩, some alternatives⟩]
  names := [("token", 0)]

/-- The rules `token = "a" | "ab"` and `token = "ab" | "a"`, put together by two builders. -/
theorem build_reordered_token :
    (new 0).run [.rule "token", .literal "a", .literal "ab", .bind ⟨0, 0⟩ [⟨1, 0⟩, ⟨2, 0⟩]] =
        ([⟨0, 0⟩, ⟨1, 0⟩, ⟨2, 0⟩], tokenBuilder 0 [⟨1, 0⟩, ⟨2, 0⟩]) ∧
      (new 1).run [.rule "token", .literal "a", .literal "ab", .bind ⟨0, 1⟩ [⟨2, 1⟩, ⟨1, 1⟩]] =
        ([⟨0, 1⟩, ⟨1, 1⟩, ⟨2, 1⟩], tokenBuilder 1 [⟨2, 1⟩, ⟨1, 1⟩]) ∧
      (tokenBuilder 0 [⟨1, 0⟩, ⟨2, 0⟩]).Reordered (tokenBuilder 1 [⟨2, 1⟩, ⟨1, 1⟩]) ∧
      ∃ grammar grammar',
        (tokenBuilder 0 [⟨1, 0⟩, ⟨2, 0⟩]).build ⟨0, 0⟩ {} = .ok grammar ∧
        (tokenBuilder 1 [⟨2, 1⟩, ⟨1, 1⟩]).build ⟨0, 1⟩ {} = .ok grammar' ∧
        grammar.LexesAlike grammar' := by
  have hrun : (new 0).run [.rule "token", .literal "a", .literal "ab",
      .bind ⟨0, 0⟩ [⟨1, 0⟩, ⟨2, 0⟩]] =
        ([⟨0, 0⟩, ⟨1, 0⟩, ⟨2, 0⟩], tokenBuilder 0 [⟨1, 0⟩, ⟨2, 0⟩]) := by decide +kernel
  have hrun' : (new 1).run [.rule "token", .literal "a", .literal "ab",
      .bind ⟨0, 1⟩ [⟨2, 1⟩, ⟨1, 1⟩]] =
        ([⟨0, 1⟩, ⟨1, 1⟩, ⟨2, 1⟩], tokenBuilder 1 [⟨2, 1⟩, ⟨1, 1⟩]) := by decide +kernel
  have hre : (tokenBuilder 0 [⟨1, 0⟩, ⟨2, 0⟩]).Reordered (tokenBuilder 1 [⟨2, 1⟩, ⟨1, 1⟩]) := by
    have hperm : SamePlaces [⟨1, 0⟩, ⟨2, 0⟩] [⟨2, 1⟩, ⟨1, 1⟩] := .swap 2 1 []
    exact ⟨.cons (.rule 0) (.cons (.primitive _) (.cons (.primitive _) .nil)),
      .cons ⟨rfl, rfl, .some hperm⟩ .nil⟩
  refine ⟨hrun, hrun', hre, ?_⟩
  have hissued : (⟨0, 0⟩ : NodeId) ∈ [⟨0, 0⟩, ⟨1, 0⟩, ⟨2, 0⟩] ↔
      (⟨0, 1⟩ : NodeId) ∈ [⟨0, 1⟩, ⟨1, 1⟩, ⟨2, 1⟩] := by decide
  have hplace : (⟨0, 0⟩ : NodeId).index = (⟨0, 1⟩ : NodeId).index := rfl
  obtain ⟨e, herror, -⟩ | hgrammars := build_reordered hrun hrun' hre hplace hissued {}
  · have hok : ((tokenBuilder 0 [⟨1, 0⟩, ⟨2, 0⟩]).build ⟨0, 0⟩ {}).isOk = true := by
      decide +kernel
    rw [herror] at hok
    cases hok
  · exact hgrammars

end Builder

end Packrat
