import Packrat.Tokenizer
import Packrat.Proofs.Sessions

/-!
# Tokenizing ends

* `Tokenizer.WellFormed`: the rule of a tokenizer is in its grammar, and each alternative has a
  kind.
* `exists_run_tokensFrom`: **tokenizing ends** plainly.
* `goesOn_of_run`: how it goes on from an offset is up to the outcome of the rule there.
* `tokensFrom_table`: with a sound table it ends in the same way.
* `tokenize_of_run`, `exists_run_tokenize`: what `tokenize` answers is up to the plain run.
-/

namespace Packrat

open Evaluation

namespace Tokenizer

variable {tokenizer : Tokenizer} {input : Input}

/-- The rule is in the grammar, with one kind for each alternative. -/
def WellFormed (tokenizer : Tokenizer) : Prop :=
  ∃ rule, tokenizer.grammar.arena.rule? tokenizer.rule = some rule ∧
    tokenizer.kinds.size = rule.alternatives.length

/-- **The tokenizer of a rule** has a kind for each alternative of the rule. -/
theorem tokenizer_eq_ok {grammar : Grammar} (hbuilt : grammar.Built) {name : String} :
    grammar.tokenizer name = .ok tokenizer ↔
      ∃ id rule, grammar.arena.ruleNamed? name = some id ∧ grammar.arena.rule? id = some rule ∧
        tokenizer =
          ⟨grammar, id, (rule.alternatives.mapIdx (grammar.arena.tokenKind name)).toArray⟩ := by
  unfold Grammar.tokenizer
  cases hid : grammar.arena.ruleNamed? name with
  | none => simp
  | some id =>
    obtain ⟨rule, hrule, -⟩ := (hbuilt.wellFormed.names name id).1 hid
    simp [hrule, eq_comm]

theorem wellFormed_of_tokenizer {grammar : Grammar} (hbuilt : grammar.Built) {name : String}
    (h : grammar.tokenizer name = .ok tokenizer) : tokenizer.WellFormed := by
  obtain ⟨id, rule, -, hrule, rfl⟩ := (tokenizer_eq_ok hbuilt).1 h
  exact ⟨rule, hrule, by simp⟩

/-- A rule of a built grammar is settled plainly at any offset of the text. An alternative that is
chosen is one of the rule, and takes characters of the text only. -/
theorem exists_run_rule {grammar : Grammar} (h : grammar.Built) {id : RuleId} {rule : Rule}
    (hrule : grammar.arena.rule? id = some rule) {pos : Nat} (hpos : pos ≤ input.length)
    (mode : Mode) (f : Nat) :
    ∃ resolution f', (Evaluation.rule grammar.arena input mode id pos : Attempt Resolution).run f =
        .ok (resolution, f') ∧
      ∀ choice, resolution = .chosen choice → choice.alternative < rule.alternatives.length := by
  obtain ⟨⟨outcomes, inner⟩, htried⟩ : ∃ r, (triedOutcomes mode (plainNode grammar.arena input
      mode (grammar.arena.depthLimit (input.length - pos)) · pos) rule.alternatives).run pos =
        .ok r := by
    refine exists_run_triedOutcomes (fun a ha s => ?_) pos
    exact h.exists_run_evalNode mode s (h.wellFormed.alternative_lt id rule hrule a ha) hpos
      (Nat.le_refl _)
  refine ⟨Resolution.ofOutcomes 0 none ⟨pos⟩ outcomes, max f inner, ?_, ?_⟩
  · unfold Evaluation.rule settleRule
    simp only [hrule]
    exact settle_run_eq_ok.2 ⟨inner, run_resolve_eq_ok.2 ⟨outcomes, htried, rfl⟩, rfl⟩
  -- each outcome is that of an alternative, so there are no more of them
  · intro choice hchoice
    obtain ⟨hbest | ⟨i, hi, hplace⟩, -⟩ := ofOutcomes_eq_chosen hchoice
    · cases hbest
    · have hlen := length_of_run_triedOutcomes htried
      have hlt := (List.getElem?_eq_some_iff.1 hi).1
      omega

/-- **Tokenizing ends** plainly. -/
theorem exists_run_tokensFrom (hbuilt : tokenizer.grammar.Built) (hwf : tokenizer.WellFormed)
    (pos f : Nat) :
    ∃ r, (tokensFrom tokenizer input pos :
      Attempt (Except TokenizerError (List Token))).run f = .ok r := by
  induction hleft : input.length - pos using Nat.strong_induction_on generalizing pos f with
  | _ left ih =>
    rw [tokensFrom]
    split
    · rename_i hlt
      obtain ⟨rule, hrule, hkinds⟩ := hwf
      obtain ⟨resolution, f', hrun, hchosen⟩ :=
        exists_run_rule hbuilt hrule (Nat.le_of_lt hlt) .lexer f
      refine exists_run_bind hrun ?_
      cases resolution with
      | noMatch failure => exact ⟨_, rfl⟩
      | chosen choice =>
        obtain ⟨kind, hkind⟩ : ∃ kind, tokenizer.kinds[choice.alternative]? = some kind := by
          have hplace := hchosen choice rfl
          exact ⟨_, Array.getElem?_eq_getElem (by omega)⟩
        simp only [hkind]
        split
        · exact ⟨_, rfl⟩
        · obtain ⟨⟨rest, f''⟩, hrest⟩ := ih _ (by omega) choice.span.stop f' rfl
          exact exists_run_bind hrest ⟨_, rfl⟩
    · exact ⟨_, rfl⟩

/-- What becomes of a text from `pos` on when the rule comes to an outcome there, with failures
counted from `t` on behind it. -/
def GoesOn (tokenizer : Tokenizer) (input : Input) (pos t : Nat)
    (result : Except TokenizerError (List Token)) : Outcome → Prop
  | .noMatch failure => result = .error (.noToken pos failure.index)
  | .matched span =>
    if span.stop ≤ pos then result = .error (.emptyToken pos)
    else ∃ kind rest g,
      (tokensFrom tokenizer input span.stop :
        Attempt (Except TokenizerError (List Token))).run t = .ok (rest, g) ∧
        result = rest.map (⟨kind, span, input.slice span⟩ :: ·)

/-- **How a text is cut** goes by the outcome of the rule, apart from the kinds of tokens. -/
theorem goesOn_of_run {pos f g : Nat} {result : Except TokenizerError (List Token)}
    (hlt : pos < input.length)
    (hrun : (tokensFrom tokenizer input pos :
      Attempt (Except TokenizerError (List Token))).run f = .ok (result, g)) :
    ∃ resolution t,
      (Evaluation.rule tokenizer.grammar.arena input .lexer tokenizer.rule pos :
        Attempt Resolution).run f = .ok (resolution, t) ∧
      tokenizer.GoesOn input pos t result resolution.toOutcome := by
  rw [tokensFrom, dif_pos hlt] at hrun
  obtain ⟨resolution, t, hsettle, hrun⟩ := run_bind_eq_ok.1 hrun
  refine ⟨resolution, t, hsettle, ?_⟩
  cases resolution with
  | noMatch failure =>
    cases hrun
    exact rfl
  | chosen choice =>
    show if choice.span.stop ≤ pos then _ else _
    simp only at hrun
    split at hrun
    · rename_i hempty
      rw [if_pos hempty]
      cases hrun
      rfl
    · rename_i hprogress
      rw [if_neg hprogress]
      split at hrun
      · cases hrun
      · rename_i kind hkind
        obtain ⟨rest, u, hrest, hrun⟩ := run_bind_eq_ok.1 hrun
        cases hrun
        exact ⟨kind, rest, g, hrest, rfl⟩

/-- **Tokenizing with a sound table ends as it does plainly.** -/
theorem tokensFrom_table (tokenizer : Tokenizer) (pos : Nat) :
    Agrees tokenizer.grammar.arena input (tokensFrom tokenizer input pos)
      (tokensFrom tokenizer input pos) := by
  induction hleft : input.length - pos using Nat.strong_induction_on generalizing pos with
  | _ left ih =>
    rw [tokensFrom, tokensFrom]
    split
    · refine (tableReading tokenizer.grammar.arena input).bind
        ((tableReading _ _).settleRule settles_table (evalNode_table _) tokenizer.rule pos) ?_
      intro resolution
      cases resolution with
      | noMatch failure => exact (tableReading _ _).pure _
      | chosen choice =>
        simp only
        split
        · exact (tableReading _ _).pure _
        · split
          · exact (tableReading _ _).fault _
          · exact (tableReading _ _).bind (ih _ (by omega) choice.span.stop rfl)
              fun rest => (tableReading _ _).pure _
    · exact (tableReading _ _).pure _

/-- Tokens do not depend on the settings. -/
theorem tokensFrom_config {m : Type → Type} [Matching m] {arena : Arena} {root : NodeId}
    (config config' : Config) {id : RuleId} {kinds : Array String} (pos : Nat) :
    (tokensFrom ⟨⟨arena, root, config⟩, id, kinds⟩ input pos :
        m (Except TokenizerError (List Token))) =
      tokensFrom ⟨⟨arena, root, config'⟩, id, kinds⟩ input pos := by
  induction hleft : input.length - pos using Nat.strong_induction_on generalizing pos with
  | _ left ih =>
    rw [tokensFrom, tokensFrom]
    split
    · congr 1
      funext resolution
      cases resolution with
      | noMatch failure => rfl
      | chosen choice =>
        simp only
        split
        · rfl
        · rw [ih _ (by omega) choice.span.stop rfl]
    · rfl

/-- **What `tokenize` answers is up to the plain run**, with a table and without. -/
theorem tokenize_of_run {text : String} {result : Except TokenizerError (List Token)} {f : Nat}
    (h : (tokensFrom tokenizer (.ofString text) 0 :
      Attempt (Except TokenizerError (List Token))).run 0 = .ok (result, f)) :
    tokenizer.tokenize text = result.mapError Error.tokenizer := by
  have hplain : (tokensFrom tokenizer (.ofString text) 0 :
      Attempt (Except TokenizerError (List Token))) 0 = .ok (result, f) := h
  unfold tokenize
  by_cases hmemoize : tokenizer.grammar.config.memoize = true
  · obtain ⟨table, hmemo, -⟩ := tokensFrom_table tokenizer 0 ⟨0, .empty⟩ result f
      (Memo.Table.sound_empty _ _) h
    have hmemo : (tokensFrom tokenizer (.ofString text) 0 :
        Memoized (Except TokenizerError (List Token))) ⟨0, .empty⟩ = .ok (result, ⟨f, table⟩) :=
      hmemo
    simp only [Grammar.freshTable?, if_pos hmemoize, Evaluation.run, hmemo]
    cases result <;> rfl
  · simp only [Grammar.freshTable?, if_neg hmemoize, Evaluation.run, hplain]
    cases result <;> rfl

/-- A text is tokenized as it is plainly, which ends. -/
theorem exists_run_tokenize (hbuilt : tokenizer.grammar.Built) (hwf : tokenizer.WellFormed)
    (text : String) :
    ∃ result f, (tokensFrom tokenizer (.ofString text) 0 :
        Attempt (Except TokenizerError (List Token))).run 0 = .ok (result, f) ∧
      tokenizer.tokenize text = result.mapError Error.tokenizer := by
  obtain ⟨⟨result, f⟩, hrun⟩ := exists_run_tokensFrom hbuilt hwf 0 0
  exact ⟨result, f, hrun, tokenize_of_run hrun⟩

end Tokenizer

end Packrat
