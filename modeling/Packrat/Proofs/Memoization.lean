import Packrat.Proofs.Tokenizing

/-!
# Tables change no result

Two grammars that differ in whether tables are kept answer alike, to any calls in any order.

* `Built.memoize_transparent`: **keeping tables changes no result**, of a session, of a single
  match, or of tokenizing.
-/

namespace Packrat

namespace Grammar

variable {grammar : Grammar}

/-- The same grammar with tables kept, or not. -/
def withMemoize (grammar : Grammar) (memoize : Bool) : Grammar :=
  { grammar with config := { grammar.config with memoize } }

/-- Settings are not looked at when a grammar is built. -/
theorem Built.withMemoize (h : grammar.Built) (memoize : Bool) :
    (grammar.withMemoize memoize).Built := by
  obtain ⟨tag, operations, root, config, h⟩ := h
  refine ⟨tag, operations, root, { grammar.config with memoize }, ?_⟩
  rw [Builder.build_eq] at h ⊢
  split_ifs at h with howns
  rw [if_pos howns]
  cases hbound : ((Builder.new tag).run operations).2.unbound? with
  | some pending => simp [hbound] at h
  | none =>
    simp only [hbound] at h ⊢
    split at h
    · cases h
    · cases h
      rfl

/-- A session that keeps a table serves the grammar that keeps none. -/
theorem session_withMemoize_serves (grammar : Grammar) (text : String) :
    ((grammar.withMemoize true).session text).Serves (grammar.withMemoize false)
      (.ofString text) :=
  ⟨rfl, rfl, rfl, ((grammar.withMemoize true).session_serves text).sound⟩

/-- The tokenizers of both have the same rule and the same kinds. -/
theorem tokenizer_withMemoize (grammar : Grammar) (memoize : Bool) (name : String) :
    (grammar.withMemoize memoize).tokenizer name =
      (grammar.tokenizer name).map fun tokenizer =>
        { tokenizer with grammar := grammar.withMemoize memoize } := by
  unfold Grammar.tokenizer
  simp only [Grammar.withMemoize]
  split <;> rfl

/-- A rule cuts a text in the same way with a table and without. -/
theorem Built.tokenize_withMemoize (h : grammar.Built) {name : String} {tokenizer : Tokenizer}
    (htokenizer : grammar.tokenizer name = .ok tokenizer) (text : String) :
    (Tokenizer.mk (grammar.withMemoize true) tokenizer.rule tokenizer.kinds).tokenize text =
      (Tokenizer.mk (grammar.withMemoize false) tokenizer.rule tokenizer.kinds).tokenize text := by
  have hplain : (grammar.withMemoize false).tokenizer name =
      .ok ⟨grammar.withMemoize false, tokenizer.rule, tokenizer.kinds⟩ := by
    rw [tokenizer_withMemoize, htokenizer]
    rfl
  obtain ⟨⟨result, f⟩, hrun⟩ : ∃ r,
      (Tokenizer.tokensFrom ⟨grammar.withMemoize false, tokenizer.rule, tokenizer.kinds⟩
        (.ofString text) 0 : Attempt (Except TokenizerError (List Token))).run 0 = .ok r :=
    Tokenizer.exists_run_tokensFrom (h.withMemoize false)
      (Tokenizer.wellFormed_of_tokenizer (h.withMemoize false) hplain) 0 0
  -- the plain run is the same for both
  rw [Tokenizer.tokenize_of_run hrun]
  refine Tokenizer.tokenize_of_run (f := f) ?_
  rw [← hrun]
  exact congrArg (fun evaluation => StateT.run evaluation 0)
    (Tokenizer.tokensFrom_config (m := Attempt) _ _ 0)

/-- **Keeping tables changes no result.** Any calls on a session with a table, in any order and
with any calls before them, are answered as each of them is without a table, where it is answered;
and so are single matches and the tokens of a text. -/
theorem Built.memoize_transparent (h : grammar.Built) (text : String) :
    (∀ calls : List Session.Call,
      (((grammar.withMemoize true).session text).calls calls).1 =
        calls.map fun call => (((grammar.withMemoize false).session text).call call).1) ∧
      (∀ call : Session.Call,
        call.Answered grammar (((grammar.withMemoize false).session text).call call).1) ∧
      (∀ start mode, (grammar.withMemoize true).parse text start mode =
        (grammar.withMemoize false).parse text start mode) ∧
      (∀ name start mode, (grammar.withMemoize true).parseRule name text start mode =
        (grammar.withMemoize false).parseRule name text start mode) ∧
      ∀ name, ((grammar.withMemoize true).tokenizer name).map (·.tokenize text) =
        ((grammar.withMemoize false).tokenizer name).map (·.tokenize text) := by
  have hbuilt := h.withMemoize false
  have hmemo := session_withMemoize_serves grammar text
  have hplain : ((grammar.withMemoize false).session text) =
      ⟨grammar.withMemoize false, .ofString text, none⟩ := rfl
  have hanswered : ∀ call : Session.Call,
      call.Answered grammar (((grammar.withMemoize false).session text).call call).1 :=
    fun call => ((Session.serves_mk_none (grammar.withMemoize false) _).call hbuilt call).2.1
  refine ⟨fun calls => (hmemo.calls hbuilt calls).1, hanswered, ?_, ?_, ?_⟩
  · intro start mode
    obtain ⟨outcome, next, hparse, -, hparse'⟩ := hmemo.parse hbuilt start mode
    rw [Grammar.parse, hparse, Grammar.parse, hplain, hparse']
    rfl
  · intro name start mode
    rw [Grammar.parseRule, Grammar.parseRule, hplain]
    cases hname : (grammar.withMemoize false).ruleNode? name with
    | none =>
      rw [hmemo.parseRule_of_none hname, (Session.serves_mk_none _ _).parseRule_of_none hname]
    | some id =>
      obtain ⟨outcome, next, hparse, -, hparse'⟩ := hmemo.parseRule hbuilt hname start mode
      rw [hparse, hparse']
      rfl
  · intro name
    rw [tokenizer_withMemoize, tokenizer_withMemoize]
    cases htokenizer : grammar.tokenizer name with
    | error e => rfl
    | ok tokenizer => exact congrArg Except.ok (h.tokenize_withMemoize htokenizer text)

theorem onlyAs_memoize_transparent :
    onlyAs.Built ∧
      (((onlyAs.withMemoize true).session "aab").calls
          [.parse 0 .lexer, .parseRule "as" 1 .parser, .clear, .parse 2 .parser]).1 =
        [.parse 0 .lexer, .parseRule "as" 1 .parser, .clear, .parse 2 .parser].map fun call =>
          (((onlyAs.withMemoize false).session "aab").call call).1 :=
  ⟨onlyAs_built, (onlyAs_built.memoize_transparent "aab").1 _⟩

end Grammar

end Packrat
