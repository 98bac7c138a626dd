import Packrat.Proofs.Surveying
import Packrat.Proofs.Tokenizing

/-!
# Tokens are the longest matches

A token is what the alternatives of the token rule come to at its offset, each on its own: the
longest of their matches, named for the first alternative that reaches so far.

* `Arena.Yields`: what a node comes to on its own.
* `Arena.Wins`: the first of the longest matches; `lexesTo_of_run`: **a rule is settled to it.**
* `Arena.IsToken`, `Arena.Cuts`: a token, and tokens that follow each other.
* `Built.tokenize_maximalMunch`: **tokenizing cuts the whole text into longest matches**, or it
  stops where there is none, or none that takes a character.
-/

namespace Packrat

open Evaluation

theorem Input.toList_slice {input : Input} {span : Span} (hle : span.start ≤ span.stop)
    (hstop : span.stop ≤ input.length) :
    (input.slice span).toList =
      (input.chars.toList.drop span.start).take (span.stop - span.start) := by
  unfold slice
  rw [if_pos ⟨hle, hstop⟩, String.toList_ofList, Array.toList_extract, List.extract_eq_take_drop]

namespace Arena

/-- The plain evaluation of a node at an offset comes to an outcome. -/
def Yields (arena : Arena) (input : Input) (mode : Mode) (id : NodeId) (pos : Nat)
    (outcome : Outcome) : Prop :=
  ∃ farthest, (Evaluation.node arena input mode id pos : Attempt Outcome).run pos =
    .ok (outcome, farthest)

/-- The alternative at a place takes `span` in lexer mode. No alternative takes more, and none
ahead of it takes as much. -/
structure Wins (arena : Arena) (input : Input) (alternatives : List NodeId) (pos place : Nat)
    (alternative : NodeId) (span : Span) : Prop where
  placed : alternatives[place]? = some alternative
  yields : arena.Yields input .lexer alternative pos (.matched span)
  longest : ∀ other ∈ alternatives, ∀ taken,
    arena.Yields input .lexer other pos (.matched taken) → taken.stop ≤ span.stop
  first : ∀ i < place, ∀ other, alternatives[i]? = some other → ∀ taken,
    arena.Yields input .lexer other pos (.matched taken) → taken.stop < span.stop

/-- What alternatives are settled to in lexer mode: the winner among them, or a failure when none
of them matches. -/
def LexesTo (arena : Arena) (input : Input) (alternatives : List NodeId) (pos : Nat) :
    Resolution → Prop
  | .chosen choice => ∃ alternative,
      arena.Wins input alternatives pos choice.alternative alternative choice.span
  | .noMatch _ => ∀ alternative ∈ alternatives, ∃ failure,
      arena.Yields input .lexer alternative pos (.noMatch failure)

/-- The kind of token that the alternative at a place makes: its name if it is a rule, else the
name of the token rule with the place behind a number sign. -/
def HasKind (arena : Arena) (name : String) (place : Nat) (alternative : NodeId)
    (kind : String) : Prop :=
  (∃ id rule, arena.node? alternative = some (.rule id) ∧ arena.rule? id = some rule ∧
      kind = rule.name) ∨
    (∀ id, arena.node? alternative ≠ some (.rule id)) ∧ kind = name ++ "#" ++ toString place

/-- A token that begins at an offset. It takes characters of the input, as many as any alternative
of the rule takes there, and it has the kind of the first alternative that takes as many. -/
structure IsToken (arena : Arena) (rule : Rule) (input : Input) (pos : Nat)
    (token : Token) : Prop where
  start_eq : token.span.start = pos
  lt_stop : pos < token.span.stop
  stop_le : token.span.stop ≤ input.length
  text_eq : token.text.toList = (input.chars.toList.drop pos).take (token.span.stop - pos)
  wins : ∃ place alternative,
    arena.Wins input rule.alternatives pos place alternative token.span ∧
      arena.HasKind rule.name place alternative token.kind

/-- The tokens cut the input from one offset up to another. Each begins where the one before it
ends. -/
inductive Cuts (arena : Arena) (rule : Rule) (input : Input) : Nat → List Token → Nat → Prop where
  | nil (pos : Nat) : Cuts arena rule input pos [] pos
  | cons {pos stop : Nat} {token : Token} {rest : List Token}
      (htoken : arena.IsToken rule input pos token)
      (hrest : Cuts arena rule input token.span.stop rest stop) :
      Cuts arena rule input pos (token :: rest) stop

/-- What tokenizing from an offset on may come to: tokens up to the end of the input, or tokens up
to an offset ahead of the end at which no alternative matches, or at which some do and none of them
takes a character. -/
def Munches (arena : Arena) (rule : Rule) (input : Input) (pos : Nat) :
    Except TokenizerError (List Token) → Prop
  | .ok tokens => arena.Cuts rule input pos tokens input.length
  | .error (.noToken index _) =>
    index < input.length ∧ (∃ tokens, arena.Cuts rule input pos tokens index) ∧
      ∀ alternative ∈ rule.alternatives, ∃ failure,
        arena.Yields input .lexer alternative index (.noMatch failure)
  | .error (.emptyToken index) =>
    index < input.length ∧ (∃ tokens, arena.Cuts rule input pos tokens index) ∧
      (∃ alternative ∈ rule.alternatives,
        arena.Yields input .lexer alternative index (.matched (.empty index))) ∧
      ∀ alternative ∈ rule.alternatives, ∀ taken,
        arena.Yields input .lexer alternative index (.matched taken) → taken = .empty index
  | .error (.unknownRule _) => False

variable {arena : Arena} {input : Input} {mode : Mode} {id : NodeId} {pos stop f f' : Nat}
  {outcome other : Outcome} {rule : Rule} {tokens : List Token}

/-- A node comes to one outcome only. -/
theorem Yields.unique (h : arena.Yields input mode id pos outcome)
    (h' : arena.Yields input mode id pos other) : outcome = other := by
  obtain ⟨farthest, hrun⟩ := h
  obtain ⟨farthest', hrun'⟩ := h'
  rw [hrun] at hrun'
  cases hrun'
  rfl

/-- What a node comes to while others are tried is what it comes to on its own. -/
theorem yields_of_run
    (h : (plainNode arena input mode (arena.depthLimit (input.length - pos)) id pos).run f =
      .ok (outcome, f')) : arena.Yields input mode id pos outcome :=
  evalNode_value pos h

theorem Yields.within (h : arena.Yields input mode id pos outcome) (hpos : pos ≤ input.length) :
    outcome.Within input pos pos := by
  obtain ⟨farthest, hrun⟩ := h
  exact evalNode_within hpos hrun

/-- The choice between the outcomes that alternatives yield, each at its place. -/
theorem lexesTo_ofOutcomes {alternatives : List NodeId} {outcomes : List Outcome}
    (hyields : ∀ (place : Nat) alternative, alternatives[place]? = some alternative →
      ∃ outcome, outcomes[place]? = some outcome ∧
        arena.Yields input .lexer alternative pos outcome)
    (hlen : outcomes.length ≤ alternatives.length) :
    arena.LexesTo input alternatives pos (Resolution.ofOutcomes 0 none ⟨pos⟩ outcomes) := by
  have htaken : ∀ (place : Nat) alternative taken, alternatives[place]? = some alternative →
      arena.Yields input .lexer alternative pos (.matched taken) →
        outcomes[place]? = some (.matched taken) := by
    intro place alternative taken hplace hother
    obtain ⟨outcome, houtcome, hyield⟩ := hyields place alternative hplace
    rw [houtcome, hyield.unique hother]
  cases hresolution : Resolution.ofOutcomes 0 none ⟨pos⟩ outcomes with
  | noMatch failure =>
    obtain ⟨-, -, -, hfailed⟩ := ofOutcomes_eq_noMatch hresolution
    intro alternative ha
    obtain ⟨place, hplace⟩ := List.getElem?_of_mem ha
    obtain ⟨outcome, houtcome, hyield⟩ := hyields place alternative hplace
    obtain ⟨deepest, rfl, -⟩ := hfailed outcome (List.mem_of_getElem? houtcome)
    exact ⟨deepest, hyield⟩
  | chosen choice =>
    obtain ⟨hfrom, -, hlongest⟩ := ofOutcomes_eq_chosen hresolution
    obtain ⟨-, hfirst⟩ := stop_lt_of_ofOutcomes_eq_chosen hresolution (by simp)
    obtain ⟨i, hi, hplace⟩ : ∃ i, outcomes[i]? = some (.matched choice.span) ∧
        choice.alternative = 0 + i := by
      rcases hfrom with hbest | hfrom
      · cases hbest
      · exact hfrom
    obtain rfl : i = choice.alternative := by omega
    have hlt : choice.alternative < alternatives.length :=
      Nat.lt_of_lt_of_le (List.getElem?_eq_some_iff.1 hi).1 hlen
    have hplaced : alternatives[choice.alternative]? = some alternatives[choice.alternative] :=
      List.getElem?_eq_getElem hlt
    refine ⟨alternatives[choice.alternative], hplaced, ?_, ?_, ?_⟩
    · obtain ⟨outcome, houtcome, hyield⟩ := hyields _ _ hplaced
      rw [hi] at houtcome
      cases houtcome
      exact hyield
    · intro other hother taken hyield
      obtain ⟨place, hplace⟩ := List.getElem?_of_mem hother
      exact hlongest taken (List.mem_of_getElem? (htaken place other taken hplace hyield))
    · intro place hahead other hplace taken hyield
      exact hfirst place taken (htaken place other taken hplace hyield) (by omega)

/-- **A rule is settled in lexer mode** to the first of the longest matches. -/
theorem lexesTo_of_run {rid : RuleId} {resolution : Resolution}
    (hrule : arena.rule? rid = some rule)
    (h : (Evaluation.rule arena input .lexer rid pos : Attempt Resolution).run f =
      .ok (resolution, f')) : arena.LexesTo input rule.alternatives pos resolution := by
  unfold Evaluation.rule settleRule at h
  simp only [hrule] at h
  obtain ⟨inner, hbody, -⟩ := settle_run_eq_ok.1 h
  obtain ⟨outcomes, htried, rfl⟩ := run_resolve_eq_ok.1 hbody
  refine lexesTo_ofOutcomes ?_ (length_of_run_triedOutcomes htried)
  intro place alternative hplace
  obtain ⟨outcome, t, t', houtcome, hrun⟩ :=
    getElem?_of_run_triedOutcomes htried place alternative hplace
  exact ⟨outcome, houtcome, yields_of_run hrun⟩

theorem hasKind_tokenKind (hwf : arena.WellFormed) (name : String) (place : Nat)
    (alternative : NodeId) :
    arena.HasKind name place alternative (arena.tokenKind name place alternative) := by
  unfold tokenKind
  split
  · rename_i id hnode
    obtain ⟨rule, hrule⟩ := hwf.exists_rule hnode
    exact Or.inl ⟨id, rule, hnode, hrule, by simp [hrule]⟩
  · rename_i hnode
    exact Or.inr ⟨hnode, rfl⟩

/-- The winner makes a token if it takes a character. -/
theorem Wins.isToken {place : Nat} {alternative : NodeId} {span : Span}
    (h : arena.Wins input rule.alternatives pos place alternative span) (hwf : arena.WellFormed)
    (hpos : pos ≤ input.length) (hlt : pos < span.stop) :
    arena.IsToken rule input pos
      ⟨arena.tokenKind rule.name place alternative, span, input.slice span⟩ := by
  obtain ⟨hstart, hle, hstop⟩ := h.yields.within hpos
  have hstart : span.start = pos := hstart
  refine ⟨hstart, hlt, hstop, ?_, place, alternative, h, hasKind_tokenKind hwf _ _ _⟩
  rw [Input.toList_slice (by omega) hstop, hstart]

/-- If the winner takes nothing no alternative that matches takes anything. -/
theorem Wins.munches_emptyToken {place : Nat} {alternative : NodeId} {span : Span}
    (h : arena.Wins input rule.alternatives pos place alternative span)
    (hpos : pos < input.length) (hempty : span.stop ≤ pos) :
    arena.Munches rule input pos (.error (.emptyToken pos)) := by
  have hnone : ∀ other ∈ rule.alternatives, ∀ taken,
      arena.Yields input .lexer other pos (.matched taken) → taken = .empty pos := by
    intro other hother taken hyield
    have hlongest := h.longest other hother taken hyield
    obtain ⟨start, stop⟩ := taken
    obtain ⟨hstart, hge, -⟩ := hyield.within (Nat.le_of_lt hpos)
    have hstart : start = pos := hstart
    have hstop : stop = pos := by
      have : pos ≤ stop := hge
      have : stop ≤ span.stop := hlongest
      omega
    rw [hstart, hstop]
    rfl
  have hmem := List.mem_of_getElem? h.placed
  have hspan := hnone alternative hmem span h.yields
  exact ⟨hpos, ⟨[], .nil pos⟩, ⟨alternative, hmem, hspan ▸ h.yields⟩, hnone⟩

/-- A token goes ahead of those that follow it, however they end. -/
theorem Munches.cons {token : Token} {result : Except TokenizerError (List Token)}
    (htoken : arena.IsToken rule input pos token)
    (h : arena.Munches rule input token.span.stop result) :
    arena.Munches rule input pos (result.map (token :: ·)) := by
  match result, h with
  | .ok tokens, hcuts => exact Cuts.cons htoken hcuts
  | .error (.noToken index deepest), ⟨hindex, ⟨tokens, hcuts⟩, hfailed⟩ =>
    exact ⟨hindex, ⟨_, .cons htoken hcuts⟩, hfailed⟩
  | .error (.emptyToken index), ⟨hindex, ⟨tokens, hcuts⟩, hsome, hnone⟩ =>
    exact ⟨hindex, ⟨_, .cons htoken hcuts⟩, hsome, hnone⟩

theorem Cuts.le (h : arena.Cuts rule input pos tokens stop) : pos ≤ stop := by
  induction h with
  | nil pos => exact Nat.le_refl pos
  | cons htoken hrest ih =>
    have := htoken.lt_stop
    omega

/-- **Nothing is lost**: the texts of the tokens are the characters that they cut. -/
theorem Cuts.flatMap_text (h : arena.Cuts rule input pos tokens stop) :
    tokens.flatMap (·.text.toList) = (input.chars.toList.drop pos).take (stop - pos) := by
  induction h with
  | nil pos => simp
  | @cons pos stop token rest htoken hrest ih =>
    have hlt := htoken.lt_stop
    have hle := hrest.le
    have hsplit : stop - pos = (token.span.stop - pos) + (stop - token.span.stop) := by omega
    have hdrop : pos + (token.span.stop - pos) = token.span.stop := by omega
    rw [List.flatMap_cons, htoken.text_eq, ih, hsplit, List.take_add, List.drop_drop, hdrop]

end Arena

namespace Tokenizer

variable {input : Input} {pos f f' : Nat}

/-- **What tokenizing from an offset on comes to.** -/
theorem munches_of_run {grammar : Grammar} (hbuilt : grammar.Built) {id : RuleId} {rule : Rule}
    (hrule : grammar.arena.rule? id = some rule) (hpos : pos ≤ input.length)
    {result : Except TokenizerError (List Token)}
    (h : (tokensFrom ⟨grammar, id, (rule.alternatives.mapIdx
        (grammar.arena.tokenKind rule.name)).toArray⟩ input pos :
      Attempt (Except TokenizerError (List Token))).run f = .ok (result, f')) :
    grammar.arena.Munches rule input pos result := by
  induction hleft : input.length - pos using Nat.strong_induction_on
    generalizing pos f f' result with
  | _ left ih =>
    rw [tokensFrom] at h
    split at h
    · rename_i hlt
      obtain ⟨resolution, t, hsettle, h⟩ := run_bind_eq_ok.1 h
      have hwinner := Arena.lexesTo_of_run hrule hsettle
      cases resolution with
      | noMatch failure =>
        obtain ⟨rfl, -⟩ := run_pure_eq_ok.1 h
        exact ⟨hlt, ⟨[], .nil pos⟩, hwinner⟩
      | chosen choice =>
        obtain ⟨alternative, hwins⟩ := hwinner
        obtain ⟨-, -, hstop⟩ := hwins.yields.within hpos
        simp only at h
        split at h
        · rename_i hempty
          obtain ⟨rfl, -⟩ := run_pure_eq_ok.1 h
          exact hwins.munches_emptyToken hlt hempty
        · rename_i hprogress
          split at h
          · cases h
          · rename_i kind hkind
            obtain ⟨rest, u, hrest, h⟩ := run_bind_eq_ok.1 h
            obtain ⟨rfl, -⟩ := run_pure_eq_ok.1 h
            have hmunches := ih _ (by omega) hstop hrest rfl
            have hnamed : grammar.arena.tokenKind rule.name choice.alternative alternative =
                kind := by
              simpa [hwins.placed] using hkind
            subst hnamed
            have htoken := hwins.isToken hbuilt.wellFormed hpos (Nat.lt_of_not_le hprogress)
            exact .cons htoken hmunches
    · rename_i hend
      obtain ⟨rfl, -⟩ := run_pure_eq_ok.1 h
      obtain rfl : pos = input.length := by omega
      exact .nil _

end Tokenizer

namespace Grammar

/-- **Tokenizing is a partition into longest matches.** By any rule of a built grammar any text is
cut into tokens, one behind the other from its beginning up to its end, whose texts make up the
text; or it is cut so up to an offset at which no alternative of the rule matches, or at which
some do and none of them takes a character. -/
theorem Built.tokenize_maximalMunch {grammar : Grammar} (h : grammar.Built) {name : String}
    (hname : name ∈ grammar.ruleNames) (text : String) :
    ∃ rule tokenizer result, rule ∈ grammar.arena.rules ∧ rule.name = name ∧
      grammar.tokenizer name = .ok tokenizer ∧
      tokenizer.tokenize text = result.mapError Error.tokenizer ∧
      grammar.arena.Munches rule (.ofString text) 0 result ∧
      ∀ tokens, result = .ok tokens → String.join (tokens.map Token.text) = text := by
  obtain ⟨rule, hmem, rfl⟩ := List.mem_map.1 hname
  obtain ⟨id, hid⟩ := List.getElem?_of_mem hmem
  have hrule : grammar.arena.rule? id = some rule := by
    rw [Arena.rule?, ← Array.getElem?_toList]
    exact hid
  have hnamed := (h.wellFormed.names rule.name id).2 ⟨rule, hrule, rfl⟩
  have htokenizer := (Tokenizer.tokenizer_eq_ok h).2 ⟨id, rule, hnamed, hrule, rfl⟩
  have hwf := Tokenizer.wellFormed_of_tokenizer h htokenizer
  obtain ⟨⟨result, f⟩, hrun⟩ : ∃ r, (Tokenizer.tokensFrom _ (.ofString text) 0 :
      Attempt (Except TokenizerError (List Token))).run 0 = .ok r :=
    Tokenizer.exists_run_tokensFrom h hwf 0 0
  have hmunches := Tokenizer.munches_of_run h hrule (Nat.zero_le _) hrun
  refine ⟨rule, _, result, Array.mem_toList_iff.1 hmem, rfl, htokenizer,
    Tokenizer.tokenize_of_run hrun, hmunches, ?_⟩
  rintro tokens rfl
  have hcuts : grammar.arena.Cuts rule (.ofString text) 0 tokens text.length := by
    rw [← Input.length_ofString]
    exact hmunches
  rw [← String.toList_inj, String.toList_join, List.flatMap_map, hcuts.flatMap_text]
  simp [Input.ofString, ← String.length_toList]

/-- Tokens of the rule `token = "ff" | word | ""`, with `word = "f" word | "f"`. -/
def words : Grammar where
  arena :=
    { nodes := #[.rule 0, .rule 1, .primitive (.ofString "ff"), .primitive (.ofString "f"),
        .sequence [⟨3, 0⟩, ⟨1, 0⟩], .primitive (.ofString "")]
      rules := #[⟨"token", ⟨0, 0⟩, [⟨2, 0⟩, ⟨1, 0⟩, ⟨5, 0⟩]⟩, ⟨"word", ⟨1, 0⟩, [⟨4, 0⟩, ⟨3, 0⟩]⟩]
      names := [("word", 1), ("token", 0)] }
  root := ⟨0, 0⟩
  config := {}

theorem words_built : words.Built :=
  ⟨0, [.rule "token", .rule "word", .literal "ff", .literal "f", .sequence [⟨3, 0⟩, ⟨1, 0⟩],
    .literal "", .bind ⟨1, 0⟩ [⟨4, 0⟩, ⟨3, 0⟩], .bind ⟨0, 0⟩ [⟨2, 0⟩, ⟨1, 0⟩, ⟨5, 0⟩]],
    ⟨0, 0⟩, {}, by decide +kernel⟩

/-- The word `fff` is cut off as a whole; behind it only the empty alternative matches. -/
theorem words_tokenize_maximalMunch :
    words.Built ∧ "token" ∈ words.ruleNames ∧
      ∃ rule tokenizer, rule ∈ words.arena.rules ∧ rule.name = "token" ∧
        words.tokenizer "token" = .ok tokenizer ∧
        tokenizer.tokenize "fff!" = .error (.tokenizer (.emptyToken 3)) ∧
        (∃ tokens, words.arena.Cuts rule (.ofString "fff!") 0 tokens 3) ∧
        ∀ alternative ∈ rule.alternatives, ∀ taken,
          words.arena.Yields (.ofString "fff!") .lexer alternative 3 (.matched taken) →
            taken = .empty 3 := by
  have hname : "token" ∈ words.ruleNames := by decide
  obtain ⟨rule, tokenizer, result, hrule, hnamed, htokenizer, htokenize, hmunches, -⟩ :=
    words_built.tokenize_maximalMunch hname "fff!"
  have hanswer : (words.tokenizer "token").map (·.tokenize "fff!") =
      .ok (.error (.tokenizer (.emptyToken 3))) := by decide +kernel
  rw [htokenizer] at hanswer
  have hempty : tokenizer.tokenize "fff!" = .error (.tokenizer (.emptyToken 3)) :=
    Except.ok.inj hanswer
  rw [hempty] at htokenize
  cases result with
  | ok tokens => cases htokenize
  | error e =>
    cases htokenize
    obtain ⟨-, hcuts, -, hnone⟩ := hmunches
    exact ⟨words_built, hname, rule, tokenizer, hrule, hnamed, htokenizer, hempty, hcuts, hnone⟩

/-- Of two alternatives that take as much the first one lends its kind. -/
example : (words.tokenizer "token").map (·.tokenize "ff") =
    .ok (.ok [⟨"token#0", ⟨0, 2⟩, "ff"⟩]) := by decide +kernel

end Grammar

end Packrat
