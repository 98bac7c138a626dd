import Packrat.Session

/-!
# Tokenizers

Cutting a whole text into tokens. One rule of a grammar lists the kinds of tokens as its
alternatives; at each offset the longest match makes a token, and the text goes on behind it.

* `Grammar.tokenizer`: the tokenizer of a rule.
* `Tokenizer.tokensFrom`: the tokens of a text from an offset on.
* `Tokenizer.tokenize`: all tokens of a text, or why it cannot be cut.
-/

namespace Packrat

/-- A stretch of a text with its kind. -/
structure Token where
  kind : String
  span : Span
  text : String
deriving DecidableEq

/-- A rule that cuts texts into tokens, with the kind of token that each alternative makes. -/
structure Tokenizer where
  grammar : Grammar
  rule : RuleId
  kinds : Array String
deriving DecidableEq

/-- The kind of token that an alternative at a place of the rule `name` makes: the name of the
alternative if it is a rule, else the name of the rule and the place. -/
def Arena.tokenKind (arena : Arena) (name : String) (place : Nat) (alternative : NodeId) :
    String :=
  match arena.node? alternative with
  | some (.rule id) => ((arena.rule? id).map Rule.name).getD ""
  | _ => name ++ "#" ++ toString place

/-- The tokenizer of the rule of a name. -/
def Grammar.tokenizer (grammar : Grammar) (name : String) : Except TokenizerError Tokenizer :=
  match grammar.arena.ruleNamed? name with
  | none => .error (.unknownRule name)
  | some id =>
    let alternatives := ((grammar.arena.rule? id).map Rule.alternatives).getD []
    .ok ⟨grammar, id, (alternatives.mapIdx (grammar.arena.tokenKind name)).toArray⟩

namespace Tokenizer

variable {m : Type → Type} [Matching m]

/-- The tokens of a text from an offset on. Each begins where the one before it ends. -/
def tokensFrom (tokenizer : Tokenizer) (input : Input) (pos : Nat) :
    m (Except TokenizerError (List Token)) :=
  if _h : pos < input.length then do
    match ← Evaluation.rule tokenizer.grammar.arena input .lexer tokenizer.rule pos with
    | .noMatch failure => pure (.error (.noToken pos failure.index))
    | .chosen choice =>
      if _progress : choice.span.stop ≤ pos then pure (.error (.emptyToken pos))
      else
        match tokenizer.kinds[choice.alternative]? with
        | none => Matching.fault (.missingKind choice.alternative)
        | some kind => do
          let rest ← tokensFrom tokenizer input choice.span.stop
          pure (rest.map (⟨kind, choice.span, input.slice choice.span⟩ :: ·))
  else pure (.ok [])
termination_by input.length - pos

/-- All tokens of a text, in order. Rules settled for one token are used again for the next,
where the settings ask for it. -/
def tokenize (tokenizer : Tokenizer) (text : String) : Except Error (List Token) :=
  let evaluation : Evaluation (Except TokenizerError (List Token)) :=
    tokensFrom tokenizer (.ofString text) 0
  match evaluation.run 0 tokenizer.grammar.freshTable? with
  | .error fault => .error (.evaluation fault)
  | .ok (reached, _) =>
    match reached.value with
    | .error error => .error (.tokenizer error)
    | .ok tokens => .ok tokens

end Tokenizer

end Packrat
