import Packrat.Proofs.OutcomeBounds
import Packrat.Proofs.Steadiness

/-!
# Evaluations further on

An input that stands in another one, behind so many characters, is matched there as it is alone,
with all offsets higher by their number.

* `Span.shift`, `Outcome.shift`, `Token.shift` and so on: values with all offsets higher.
* `Input.Behind`: an input that stands in another one behind so many characters.
* `Shifts`: a computation that goes as another one, with all offsets higher.
* `evalNode_shifts`, `tokensFrom_shifts`: **evaluations shift.**
-/

namespace Packrat

open Evaluation

def Span.shift (n : Nat) (span : Span) : Span := ⟨n + span.start, n + span.stop⟩

def NoMatch.shift (n : Nat) (failure : NoMatch) : NoMatch := ⟨n + failure.index⟩

def Outcome.shift (n : Nat) : Outcome → Outcome
  | .matched span => .matched (span.shift n)
  | .noMatch failure => .noMatch (failure.shift n)

def Choice.shift (n : Nat) (choice : Choice) : Choice := ⟨choice.alternative, choice.span.shift n⟩

def Resolution.shift (n : Nat) : Resolution → Resolution
  | .chosen choice => .chosen (choice.shift n)
  | .noMatch failure => .noMatch (failure.shift n)

/-- The token with its span further on, of the same kind and with the same text. -/
def Token.shift (n : Nat) (token : Token) : Token := { token with span := token.span.shift n }

def TokenizerError.shift (n : Nat) : TokenizerError → TokenizerError
  | .unknownRule name => .unknownRule name
  | .noToken index deepest => .noToken (n + index) (n + deepest)
  | .emptyToken index => .emptyToken (n + index)

/-- What tokenizing comes to, with all offsets higher. -/
def shiftTokens (n : Nat) : Except TokenizerError (List Token) → Except TokenizerError (List Token)
  | .ok tokens => .ok (tokens.map (Token.shift n))
  | .error e => .error (e.shift n)

theorem NoMatch.shift_deeper (n : Nat) (failure other : NoMatch) :
    (failure.deeper other).shift n = (failure.shift n).deeper (other.shift n) := by
  unfold NoMatch.deeper NoMatch.shift
  simp only [Nat.add_lt_add_iff_left]
  split <;> rfl

theorem Resolution.toOutcome_shift (n : Nat) (resolution : Resolution) :
    (resolution.shift n).toOutcome = resolution.toOutcome.shift n := by
  cases resolution <;> rfl

theorem Choice.outreachedBy_shift (n : Nat) (best? : Option Choice) (span : Span) :
    Choice.outreachedBy (best?.map (Choice.shift n)) (span.shift n) =
      Choice.outreachedBy best? span := by
  cases best? with
  | none => rfl
  | some best => simp [Choice.outreachedBy, Choice.shift, Span.shift]

/-- The input stands at the end of `whole`, behind `n` characters. -/
structure Input.Behind (n : Nat) (input whole : Input) : Prop where
  length_eq : whole.length = n + input.length
  charAt?_eq : ∀ pos, whole.charAt? (n + pos) = input.charAt? pos

theorem Input.behind_ofString (pre text : String) :
    Input.Behind pre.length (.ofString text) (.ofString (pre ++ text)) := by
  constructor
  · rw [Input.length_ofString, Input.length_ofString, String.length_append]
  · intro pos
    simp only [Input.charAt?, Input.ofString, String.toList_append, List.getElem?_toArray]
    rw [List.getElem?_append_right (by simp [← String.length_toList]), ← String.length_toList,
      Nat.add_sub_cancel_left]

section Inputs

variable {n pos : Nat} {input whole : Input} (h : Input.Behind n input whole)
include h

/-- The same characters are cut out further on. -/
theorem Input.Behind.slice_eq (span : Span) : whole.slice (span.shift n) = input.slice span := by
  have hlength := h.length_eq
  have hsame : (n + span.start ≤ n + span.stop ∧ n + span.stop ≤ whole.length) ↔
      span.start ≤ span.stop ∧ span.stop ≤ input.length := by omega
  unfold Input.slice Span.shift
  simp only [hsame]
  split
  · rename_i hin
    congr 2
    refine Array.ext_getElem? fun i => ?_
    have hchar : whole.chars[n + (span.start + i)]? = input.chars[span.start + i]? :=
      h.charAt?_eq (span.start + i)
    have hsize : whole.chars.size = n + input.chars.size := hlength
    rw [Array.getElem?_extract, Array.getElem?_extract, Nat.add_assoc, hchar, hsize,
      Nat.add_min_add_left, Nat.add_sub_add_left]
  · rfl

theorem Input.Behind.literalAt_eq (text : Array Char) (pos i : Nat) :
    Primitive.literalAt whole text (n + pos) i = Primitive.literalAt input text pos i := by
  induction hleft : text.size - i using Nat.strong_induction_on generalizing pos i with
  | _ left ih =>
    rw [Primitive.literalAt]
    conv => rhs; rw [Primitive.literalAt]
    split
    · rw [h.charAt?_eq, Nat.add_assoc, ih _ (by omega) (pos + 1) (i + 1) rfl]
    · rfl

theorem Input.Behind.accepts_eq (p : Primitive) (pos : Nat) :
    p.accepts whole (n + pos) = p.accepts input pos := by
  unfold Primitive.accepts
  cases p with
  | any => simp only [h.charAt?_eq]
  | range chars => simp only [h.charAt?_eq]
  | set chars => simp only [h.charAt?_eq]
  | literal text =>
    simp only [h.literalAt_eq, h.length_eq, Nat.add_assoc, Nat.add_le_add_iff_left]
  | eof =>
    simp only [h.length_eq]
    rw [Bool.eq_iff_iff]
    simp

/-- A primitive goes as it does in the text alone. -/
theorem Input.Behind.attempt_eq (p : Primitive) (pos : Nat) :
    p.attempt whole (n + pos) = (p.attempt input pos).shift n := by
  unfold Primitive.attempt
  rw [h.accepts_eq]
  split
  · show Outcome.matched _ = Outcome.matched _
    rw [Span.shift, Nat.add_assoc]
  · show Outcome.noMatch _ = Outcome.noMatch _
    rw [h.length_eq, Nat.add_min_add_left]
    rfl

end Inputs

/-- The first computation goes as the second one, with all offsets `n` higher: in the cell, and by
`g` in what it comes to. -/
def Shifts {α β : Type} (n : Nat) (g : α → β) (x : Attempt β) (y : Attempt α) : Prop :=
  ∀ f, x.run (n + f) = (y.run f).map fun r => (g r.1, n + r.2)

namespace Shifts

variable {α β γ δ : Type} {n : Nat} {g : α → β} {k : γ → δ} {x : Attempt β} {y : Attempt α}

theorem pure (n : Nat) (g : α → β) (a : α) : Shifts n g (pure (g a)) (pure a) := fun _ => rfl

theorem fault (n : Nat) (g : α → β) (e : Fault) :
    Shifts n g (Matching.fault e) (Matching.fault e) := fun _ => rfl

theorem bind {u : β → Attempt δ} {v : α → Attempt γ} (hx : Shifts n g x y)
    (hu : ∀ a, Shifts n k (u (g a)) (v a)) : Shifts n k (x >>= u) (y >>= v) := by
  intro f
  rw [StateT.run_bind, StateT.run_bind, hx f]
  cases y.run f with
  | error e => rfl
  | ok r => exact hu r.1 r.2

theorem reach (n index : Nat) :
    Shifts n id (Matching.reach (n + index)) (Matching.reach index) := by
  intro f
  show Except.ok ((), max (n + f) (n + index)) = Except.ok ((), n + max f index)
  rw [Nat.add_max_add_left]

theorem settle {body body' : Attempt Resolution} {pos : Nat}
    (h : Shifts n (Resolution.shift n) body body') :
    Shifts n (Resolution.shift n) (Attempt.settle (n + pos) body) (Attempt.settle pos body') := by
  intro f
  have hbody : body (n + pos) = (body' pos).map fun r => (r.1.shift n, n + r.2) := h pos
  show Attempt.settle (n + pos) body (n + f) = _
  simp only [Attempt.settle, hbody, StateT.run]
  cases body' pos with
  | error e => rfl
  | ok r =>
    show Except.ok (_, max (n + f) (n + r.2)) = Except.ok (_, n + max f r.2)
    rw [Nat.add_max_add_left]

end Shifts

section Evaluations

variable {n : Nat} {arena : Arena} {input whole : Input} {mode : Mode}
  {eval eval' : NodeId → Nat → Attempt Outcome}
  (heval : ∀ id pos, Shifts n (Outcome.shift n) (eval id (n + pos)) (eval' id pos))
include heval

theorem orderedChoiceFrom_shifts (pos place : Nat) (deepest : NoMatch)
    (alternatives : List NodeId) :
    Shifts n (Resolution.shift n)
      (orderedChoiceFrom (eval · (n + pos)) place (deepest.shift n) alternatives)
      (orderedChoiceFrom (eval' · pos) place deepest alternatives) := by
  induction alternatives generalizing place deepest with
  | nil => exact .pure n _ (Resolution.noMatch deepest)
  | cons alternative rest ih =>
    refine (heval alternative pos).bind fun outcome => ?_
    cases outcome with
    | matched span => exact .pure n _ (Resolution.chosen ⟨place, span⟩)
    | noMatch failure =>
      have hrest := ih (place + 1) (deepest.deeper failure)
      rwa [NoMatch.shift_deeper] at hrest

theorem longestMatchFrom_shifts (pos place : Nat) (best? : Option Choice) (deepest : NoMatch)
    (alternatives : List NodeId) :
    Shifts n (Resolution.shift n)
      (longestMatchFrom (eval · (n + pos)) place (best?.map (Choice.shift n)) (deepest.shift n)
        alternatives)
      (longestMatchFrom (eval' · pos) place best? deepest alternatives) := by
  induction alternatives generalizing place best? deepest with
  | nil =>
    cases best? with
    | none => exact .pure n _ (Resolution.noMatch deepest)
    | some best => exact .pure n _ (Resolution.chosen best)
  | cons alternative rest ih =>
    refine (heval alternative pos).bind fun outcome => ?_
    cases outcome with
    | matched span =>
      show Shifts n _ (longestMatchFrom _ _ (if Choice.outreachedBy (best?.map (Choice.shift n))
        (span.shift n) then _ else _) _ _) (longestMatchFrom _ _ (if _ then _ else _) _ _)
      rw [Choice.outreachedBy_shift]
      split
      · exact ih (place + 1) (some ⟨place, span⟩) deepest
      · exact ih (place + 1) best? deepest
    | noMatch failure =>
      have hrest := ih (place + 1) best? (deepest.deeper failure)
      rwa [NoMatch.shift_deeper] at hrest

theorem resolve_shifts (mode : Mode) (alternatives : List NodeId) (pos : Nat) :
    Shifts n (Resolution.shift n) (resolve mode alternatives (n + pos) (eval · (n + pos)))
      (resolve mode alternatives pos (eval' · pos)) := by
  cases mode with
  | parser => exact orderedChoiceFrom_shifts heval pos 0 ⟨pos⟩ alternatives
  | lexer => exact longestMatchFrom_shifts heval pos 0 none ⟨pos⟩ alternatives

theorem evalSequence_shifts (start : Nat) (children : List NodeId) (pos : Nat) :
    Shifts n (Outcome.shift n) (evalSequence eval (n + start) children (n + pos))
      (evalSequence eval' start children pos) := by
  induction children generalizing pos with
  | nil => exact .pure n _ (Outcome.ofBounds start pos)
  | cons child rest ih =>
    refine (heval child pos).bind fun outcome => ?_
    cases outcome with
    | matched span => exact ih span.stop
    | noMatch failure => exact .pure n _ (Outcome.noMatch failure)

theorem settleRule_shifts (arena : Arena) (mode : Mode) (id : RuleId) (pos : Nat) :
    Shifts n (Resolution.shift n) (settleRule arena mode eval id (n + pos))
      (settleRule arena mode eval' id pos) := by
  unfold settleRule
  cases arena.rule? id with
  | none => exact .fault n _ _
  | some rule => exact (resolve_shifts heval mode rule.alternatives pos).settle

theorem matchNode_shifts (h : Input.Behind n input whole) (arena : Arena) (mode : Mode)
    (id : NodeId) (pos : Nat) :
    Shifts n (Outcome.shift n) (matchNode arena whole mode eval id (n + pos))
      (matchNode arena input mode eval' id pos) := by
  unfold matchNode
  cases arena.node? id with
  | none => exact .fault n _ _
  | some node =>
    cases node with
    | primitive p =>
      intro f
      show Except.ok (p.attempt whole (n + pos), n + f) = _
      rw [h.attempt_eq]
      rfl
    | sequence children => exact evalSequence_shifts heval pos children pos
    | rule rule =>
      refine (settleRule_shifts heval arena mode rule pos).bind fun resolution => ?_
      rw [Resolution.toOutcome_shift]
      exact .pure n _ resolution.toOutcome

end Evaluations

theorem noteFailure_shifts (n : Nat) (outcome : Outcome) :
    Shifts n (Outcome.shift n) (noteFailure (outcome.shift n)) (noteFailure outcome) := by
  cases outcome with
  | matched span => exact .pure n _ (Outcome.matched span)
  | noMatch failure =>
    exact (Shifts.reach n failure.index).bind fun _ => .pure n _ (Outcome.noMatch failure)

/-- **A plain evaluation goes as it does in the text alone.** -/
theorem evalNode_shifts {n : Nat} {input whole : Input} (h : Input.Behind n input whole)
    (arena : Arena) (mode : Mode) (depth : Nat) (id : NodeId) (pos : Nat) :
    Shifts n (Outcome.shift n) (plainNode arena whole mode depth id (n + pos))
      (plainNode arena input mode depth id pos) := by
  induction depth generalizing id pos with
  | zero => exact .fault n _ _
  | succ depth ih =>
    rw [plainNode, plainNode, evalNode_succ, evalNode_succ]
    exact (matchNode_shifts ih h arena mode id pos).bind (noteFailure_shifts n)

namespace Tokenizer

variable {n : Nat} {input whole : Input}

theorem rule_shifts (h : Input.Behind n input whole) (arena : Arena) (mode : Mode) (id : RuleId)
    (pos : Nat) :
    Shifts n (Resolution.shift n) (Evaluation.rule arena whole mode id (n + pos))
      (Evaluation.rule arena input mode id pos) := by
  have hleft : whole.length - (n + pos) = input.length - pos := by
    have := h.length_eq
    omega
  unfold Evaluation.rule
  rw [hleft]
  exact settleRule_shifts (evalNode_shifts h arena mode _) arena mode id pos

/-- **Plain tokenizing goes as it does in the text alone.** -/
theorem tokensFrom_shifts (h : Input.Behind n input whole) (tokenizer : Tokenizer) (pos : Nat) :
    Shifts n (shiftTokens n) (tokensFrom tokenizer whole (n + pos))
      (tokensFrom tokenizer input pos) := by
  have hlength := h.length_eq
  induction hleft : input.length - pos using Nat.strong_induction_on generalizing pos with
  | _ left ih =>
    rw [tokensFrom]
    conv => rhs; rw [tokensFrom]
    by_cases hlt : pos < input.length
    · rw [dif_pos hlt, dif_pos (show n + pos < whole.length by omega)]
      refine (rule_shifts h _ .lexer tokenizer.rule pos).bind fun resolution => ?_
      cases resolution with
      | noMatch failure => exact .pure n (shiftTokens n) (.error (.noToken pos failure.index))
      | chosen choice =>
        simp only [Resolution.shift, Choice.shift, Span.shift, Nat.add_le_add_iff_left]
        split
        · exact .pure n (shiftTokens n) (.error (.emptyToken pos))
        · split
          · exact .fault n _ _
          · rename_i kind hkind
            refine (ih _ (by omega) choice.span.stop rfl).bind fun tokens => ?_
            have hslice : whole.slice ⟨n + choice.span.start, n + choice.span.stop⟩ =
                input.slice choice.span := h.slice_eq choice.span
            rw [hslice]
            cases tokens with
            | error e => exact .pure n (shiftTokens n) (.error e)
            | ok tokens =>
              exact .pure n (shiftTokens n)
                (.ok (⟨kind, choice.span, input.slice choice.span⟩ :: tokens))
    · rw [dif_neg hlt, dif_neg (show ¬ n + pos < whole.length by omega)]
      exact .pure n (shiftTokens n) (.ok [])

end Tokenizer

end Packrat
