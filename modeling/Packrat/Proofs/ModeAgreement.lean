import Mathlib.Order.MinMax
import Packrat.Proofs.MaximalMunch
import Packrat.Proofs.Steadiness

/-!
# Where the mode does not matter

A mode decides between alternatives that match. Where all that match end at the same offset, the
first match is as long as the longest one, so both modes take the same way through a text. The
lexer tries what the parser tries and more, so its failures get at least as far.

* `Outcome.Trails`: the same match, or a failure that got no further.
* `Arena.Uncontested`: alternatives that match end at the same offset.
* `evalNode_trails`: **a parse trails a lex** of the same node, with its farthest failure.
* `Built.parse_uncontested`: so it does as a whole, and for every rule.
-/

namespace Packrat

open Evaluation

/-- The same match, or two failures of which the first got no further than the second. -/
inductive Outcome.Trails : Outcome → Outcome → Prop where
  | matched (span : Span) : Trails (.matched span) (.matched span)
  | noMatch {failure other : NoMatch} (hle : failure.index ≤ other.index) :
      Trails (.noMatch failure) (.noMatch other)

namespace Outcome.Trails

variable {outcome other : Outcome} {f g : Nat}

theorem noted_le (h : outcome.Trails other) (hle : g ≤ f) : noted outcome g ≤ noted other f := by
  cases h with
  | matched span => exact hle
  | noMatch hfailure => exact max_le_max hle hfailure

theorem report (h : outcome.Trails other) (hle : g ≤ f) :
    (Reached.mk outcome g).report.Trails (Reached.mk other f).report := by
  cases h with
  | matched span => exact .matched span
  | noMatch hfailure =>
    refine .noMatch ?_
    rw [NoMatch.index_deeper, NoMatch.index_deeper]
    exact max_le_max hfailure hle

end Outcome.Trails

namespace Arena

/-- Two alternatives of a rule that match at the same offset in lexer mode end at the same
offset. -/
def Uncontested (arena : Arena) (input : Input) : Prop :=
  ∀ id rule, arena.rule? id = some rule → ∀ pos ≤ input.length,
    ∀ a ∈ rule.alternatives, ∀ b ∈ rule.alternatives, ∀ span other,
      arena.Yields input .lexer a pos (.matched span) →
        arena.Yields input .lexer b pos (.matched other) → span.stop = other.stop

/-- The end of what a node takes in lexer mode, if it matches. -/
def lexedStop? (arena : Arena) (input : Input) (id : NodeId) (pos : Nat) : Option Nat :=
  match (Evaluation.node arena input .lexer id pos : Attempt Outcome).run pos with
  | .ok (.matched span, _) => some span.stop
  | _ => none

theorem lexedStop?_eq_some {arena : Arena} {input : Input} {id : NodeId} {pos stop : Nat} :
    arena.lexedStop? input id pos = some stop ↔
      ∃ span, arena.Yields input .lexer id pos (.matched span) ∧ span.stop = stop := by
  unfold lexedStop? Yields
  constructor
  · intro h
    split at h
    · rename_i span farthest hrun
      exact ⟨span, ⟨farthest, hrun⟩, Option.some.inj h⟩
    · cases h
  · rintro ⟨span, ⟨farthest, hrun⟩, rfl⟩
    rw [hrun]

theorem uncontested_iff {arena : Arena} {input : Input} :
    arena.Uncontested input ↔
      ∀ rule ∈ arena.rules.toList, ∀ pos < input.length + 1, ∀ a ∈ rule.alternatives,
        ∀ b ∈ rule.alternatives, ∀ stop ∈ arena.lexedStop? input a pos,
          ∀ other ∈ arena.lexedStop? input b pos, stop = other := by
  constructor
  · intro h rule hmem pos hpos a ha b hb stop hstop other hother
    obtain ⟨id, hid⟩ := List.getElem?_of_mem hmem
    obtain ⟨span, hspan, rfl⟩ := lexedStop?_eq_some.1 hstop
    obtain ⟨taken, htaken, rfl⟩ := lexedStop?_eq_some.1 hother
    rw [Array.getElem?_toList] at hid
    exact h id rule hid pos (Nat.le_of_lt_succ hpos) a ha b hb span taken hspan htaken
  · intro h id rule hrule pos hpos a ha b hb span taken hspan htaken
    have hmem : rule ∈ arena.rules.toList := Array.mem_toList_iff.2 (Array.mem_of_getElem? hrule)
    exact h rule hmem pos (Nat.lt_succ_of_le hpos) a ha b hb _
      (lexedStop?_eq_some.2 ⟨span, hspan, rfl⟩) _ (lexedStop?_eq_some.2 ⟨taken, htaken, rfl⟩)

instance (arena : Arena) (input : Input) : Decidable (arena.Uncontested input) :=
  decidable_of_iff' _ uncontested_iff

end Arena

section Choosing

variable {place : Nat} {best : Choice} {deepest : NoMatch} {outcomes : List Outcome}

/-- A choice that nothing behind it outreaches is made. -/
theorem ofOutcomes_of_level
    (h : ∀ span, Outcome.matched span ∈ outcomes → span.stop ≤ best.span.stop) :
    Resolution.ofOutcomes place (some best) deepest outcomes = .chosen best := by
  induction outcomes generalizing place deepest with
  | nil => rfl
  | cons outcome rest ih =>
    have hrest : ∀ span, Outcome.matched span ∈ rest → span.stop ≤ best.span.stop :=
      fun span hmem => h span (List.mem_cons_of_mem _ hmem)
    cases outcome with
    | matched span =>
      have hspan := h span List.mem_cons_self
      have hlevel : Choice.outreachedBy (some best) span = false := by
        simpa [Choice.outreachedBy] using hspan
      rw [Resolution.ofOutcomes, hlevel]
      exact ih hrest
    | noMatch failure => exact ih hrest

end Choosing

variable {arena : Arena} {input : Input} {depth pos f f' g : Nat} {id : NodeId} {outcome : Outcome}

/-- The parser comes to an outcome that trails the lexer's, wherever failures are counted from. -/
def Follows (arena : Arena) (input : Input) (depth : Nat) (id : NodeId) (pos : Nat) : Prop :=
  ∀ f g outcome f', g ≤ f →
    (plainNode arena input .lexer depth id pos).run f = .ok (outcome, f') →
      ∃ parsed g', (plainNode arena input .parser depth id pos).run g = .ok (parsed, g') ∧
        parsed.Trails outcome ∧ g' ≤ f'

theorem evalSequence_trails {children : List NodeId} {start : Nat} (hpos : pos ≤ input.length)
    (hfollows : ∀ child ∈ children, ∀ pos ≤ input.length, Follows arena input depth child pos)
    (hg : g ≤ f)
    (h : (evalSequence (plainNode arena input .lexer depth) start children pos).run f =
      .ok (outcome, f')) :
    ∃ parsed g', (evalSequence (plainNode arena input .parser depth) start children pos).run g =
        .ok (parsed, g') ∧ parsed.Trails outcome ∧ g' ≤ f' := by
  induction children generalizing pos f g with
  | nil =>
    obtain ⟨rfl, rfl⟩ := run_pure_eq_ok.1 h
    exact ⟨_, g, rfl, .matched _, hg⟩
  | cons child rest ih =>
    obtain ⟨first, t, hone, hcases⟩ := evalSequence_cons_run h
    obtain ⟨parsed, u, hparsed, htrails, hu⟩ :=
      hfollows child List.mem_cons_self pos hpos f g first t hg hone
    rcases hcases with ⟨span, rfl, hrest⟩ | ⟨failure, rfl, rfl, rfl⟩
    -- both are behind the same match, so the rest of the sequence begins at the same offset
    · cases htrails
      obtain ⟨-, -, hstop⟩ := evalNode_within hpos hone
      obtain ⟨last, g', hlast, htrails, hg'⟩ :=
        ih hstop (fun c hc => hfollows c (List.mem_cons_of_mem _ hc)) hu hrest
      exact ⟨last, g', run_bind_eq_ok.2 ⟨_, u, hparsed, hlast⟩, htrails, hg'⟩
    · cases htrails with
      | noMatch hle => exact ⟨_, u, run_bind_eq_ok.2 ⟨_, u, hparsed, rfl⟩, .noMatch hle, hu⟩

/-- The parser stops at the first match. Where all matches end at the same offset the lexer
chooses it as well, and the alternatives that only the lexer tries make it fail further. -/
theorem triedOutcomes_trails {alternatives : List NodeId} {outcomes : List Outcome}
    (hfollows : ∀ a ∈ alternatives, Follows arena input depth a pos) (hg : g ≤ f)
    (hlevel : ∀ span other, Outcome.matched span ∈ outcomes → Outcome.matched other ∈ outcomes →
      span.stop = other.stop)
    (h : (triedOutcomes .lexer (plainNode arena input .lexer depth · pos) alternatives).run f =
      .ok (outcomes, f')) :
    ∃ parsed g', (triedOutcomes .parser (plainNode arena input .parser depth · pos)
        alternatives).run g = .ok (parsed, g') ∧ g' ≤ f' ∧
      ∀ place (deepest other : NoMatch), deepest.index ≤ other.index →
        (Resolution.ofOutcomes place none deepest parsed).toOutcome.Trails
          (Resolution.ofOutcomes place none other outcomes).toOutcome := by
  induction alternatives generalizing f g outcomes with
  | nil =>
    obtain ⟨rfl, rfl⟩ := run_pure_eq_ok.1 h
    exact ⟨[], g, rfl, hg, fun place deepest other hle => .noMatch hle⟩
  | cons alternative rest ih =>
    obtain ⟨outcome, t, hone, ⟨hmode, -⟩ | ⟨-, others, rfl, hrest⟩⟩ := run_triedOutcomes_cons.1 h
    · cases hmode
    obtain ⟨parsed, u, hparsed, htrails, hu⟩ :=
      hfollows alternative List.mem_cons_self f g outcome t hg hone
    cases htrails with
    | matched span =>
      -- what the lexer tries behind the match only raises its farthest failure
      have hrises : t ≤ f' := by
        refine run_triedOutcomes_keeps (P := (t ≤ ·)) (fun a _ s outcome s' hs hrun => ?_) le_rfl
          hrest
        obtain ⟨reach, -, rfl⟩ := (evalNode_steady arena input .lexer depth a pos).comes hrun
        exact le_max_of_le_left hs
      refine ⟨[.matched span], u, run_triedOutcomes_cons.2 ⟨_, u, hparsed, .inl ⟨rfl, rfl, rfl,
        rfl⟩⟩, hu.trans hrises, fun place deepest other hle => ?_⟩
      have hchosen : Resolution.ofOutcomes (place + 1) (some ⟨place, span⟩) other others =
          .chosen ⟨place, span⟩ := by
        refine ofOutcomes_of_level fun taken htaken => le_of_eq ?_
        exact hlevel taken span (List.mem_cons_of_mem _ htaken) List.mem_cons_self
      show Outcome.Trails _ (Resolution.ofOutcomes (place + 1) _ other others).toOutcome
      rw [if_pos (show Choice.outreachedBy none span = true from rfl), hchosen]
      exact .matched span
    | @noMatch failure further hle =>
      obtain ⟨parsed, g', hothers, hg', hresolution⟩ :=
        ih (fun a ha => hfollows a (List.mem_cons_of_mem _ ha)) hu (fun span other hspan hother =>
          hlevel span other (List.mem_cons_of_mem _ hspan) (List.mem_cons_of_mem _ hother)) hrest
      refine ⟨.noMatch failure :: parsed, g', run_triedOutcomes_cons.2 ⟨_, u, hparsed, .inr
        ⟨.inr rfl, parsed, rfl, hothers⟩⟩, hg', fun place deepest other hdeepest => ?_⟩
      refine hresolution (place + 1) (deepest.deeper failure) (other.deeper further) ?_
      rw [NoMatch.index_deeper, NoMatch.index_deeper]
      exact max_le_max hdeepest hle

section Grammars

variable {grammar : Grammar} (hbuilt : grammar.Built)
include hbuilt

/-- What a node comes to at some limit and from some cell is what it comes to on its own. -/
theorem Grammar.Built.yields_of_run {mode : Mode} (hid : id.index < grammar.arena.nodes.size)
    (hpos : pos ≤ input.length)
    (h : (plainNode grammar.arena input mode depth id pos).run f = .ok (outcome, f')) :
    grammar.arena.Yields input mode id pos outcome := by
  obtain ⟨⟨other, g⟩, hrun⟩ := hbuilt.exists_run_evalNode mode f hid hpos (Nat.le_refl _)
  have hmax := evalNode_mono (Nat.le_max_left depth
    (grammar.arena.depthLimit (input.length - pos))) id pos f h
  rw [evalNode_mono (Nat.le_max_right depth _) id pos f hrun] at hmax
  cases hmax
  exact Arena.yields_of_run hrun

/-- **A parse trails a lex** of the same node, and so does its farthest failure. -/
theorem evalNode_trails (huncontested : grammar.arena.Uncontested input)
    (hid : id.index < grammar.arena.nodes.size) (hpos : pos ≤ input.length) :
    Follows grammar.arena input depth id pos := by
  induction depth generalizing id pos with
  | zero =>
    intro f g outcome f' hg h
    cases h
  | succ depth ih =>
    intro f g outcome f' hg h
    have hwf := hbuilt.wellFormed
    obtain ⟨inner, hrun, rfl⟩ := evalNode_run_eq_ok.1 h
    suffices hstep : ∃ parsed last, NodeRun grammar.arena input .parser depth id pos g parsed last ∧
        parsed.Trails outcome ∧ last ≤ inner by
      obtain ⟨parsed, last, hparsed, htrails, hle⟩ := hstep
      exact ⟨parsed, _, evalNode_run_eq_ok.2 ⟨last, hparsed, rfl⟩, htrails, htrails.noted_le hle⟩
    cases hrun with
    | primitive p hnode =>
      refine ⟨_, g, .primitive p hnode, ?_, hg⟩
      cases p.attempt input pos with
      | matched span => exact .matched span
      | noMatch failure => exact .noMatch le_rfl
    | sequence children hnode _ _ hrun =>
      have hchildren : ∀ child ∈ children, child.index < grammar.arena.nodes.size :=
        fun child hc => (hwf.child_lt id.index children hnode child hc).trans hid
      obtain ⟨parsed, g', hparsed, htrails, hg'⟩ := evalSequence_trails hpos
        (fun child hc pos hpos => ih (hchildren child hc) hpos) hg hrun
      exact ⟨parsed, g', .sequence children hnode _ _ hparsed, htrails, hg'⟩
    | rule rid rule hnode hrule resolution last hrun =>
      obtain ⟨outcomes, htried, rfl⟩ := run_resolve_eq_ok.1 hrun
      have halternatives := hwf.alternative_lt rid rule hrule
      -- every outcome is one that an alternative comes to on its own
      have hyields := forall_of_run_triedOutcomes
        (P := fun outcome => ∃ a ∈ rule.alternatives,
          grammar.arena.Yields input .lexer a pos outcome)
        (fun a ha _ _ _ hrun => ⟨a, ha, hbuilt.yields_of_run (halternatives a ha) hpos hrun⟩) htried
      have hlevel : ∀ span other, Outcome.matched span ∈ outcomes →
          Outcome.matched other ∈ outcomes → span.stop = other.stop := by
        intro span other hspan hother
        obtain ⟨a, ha, hspan⟩ := hyields _ hspan
        obtain ⟨b, hb, hother⟩ := hyields _ hother
        exact huncontested rid rule hrule pos hpos a ha b hb span other hspan hother
      obtain ⟨parsed, g', hparsed, hg', htrails⟩ := triedOutcomes_trails
        (fun a ha => ih (halternatives a ha) hpos) le_rfl hlevel htried
      exact ⟨_, _, .rule rid rule hnode hrule _ g' (run_resolve_eq_ok.2 ⟨parsed, hparsed, rfl⟩),
        htrails 0 ⟨pos⟩ ⟨pos⟩ le_rfl, max_le_max hg hg'⟩

/-- A session answers in parser mode with what trails its answer in lexer mode. -/
theorem Session.Serves.evaluate_trails {session : Session} (hs : session.Serves grammar input)
    (huncontested : grammar.arena.Uncontested input) (hid : id.index < grammar.arena.nodes.size)
    (start : Nat) :
    ∃ parsed lexed next next', session.evaluate id start .parser = .ok (parsed, next) ∧
      session.evaluate id start .lexer = .ok (lexed, next') ∧ parsed.Trails lexed := by
  obtain ⟨parsed, next, hparse, -, hplain⟩ := hs.evaluate hbuilt hid start .parser
  obtain ⟨lexed, next', hlex, -, hplain'⟩ := hs.evaluate hbuilt hid start .lexer
  refine ⟨parsed, lexed, next, next', hparse, hlex, ?_⟩
  by_cases hstart : start ≤ input.length
  · obtain ⟨outcome, f, hrun, hreport⟩ := evaluate_plain hbuilt hid hstart .lexer
    obtain ⟨outcome', g, hrun', hreport'⟩ := evaluate_plain hbuilt hid hstart .parser
    rw [hplain] at hreport'
    rw [hplain'] at hreport
    cases hreport
    cases hreport'
    obtain ⟨found, g', hfound, htrails, hle⟩ :=
      evalNode_trails hbuilt huncontested hid hstart start start outcome f le_rfl hrun
    rw [hrun'] at hfound
    cases hfound
    exact htrails.report hle
  -- behind the end of the text nothing is tried in either mode
  · unfold Session.evaluate at hplain hplain'
    rw [if_pos (Nat.lt_of_not_le hstart)] at hplain hplain'
    cases hplain
    cases hplain'
    exact .noMatch le_rfl

end Grammars

namespace Grammar

variable {grammar : Grammar}

theorem Built.exists_ruleNode? (h : grammar.Built) {name : String}
    (hname : name ∈ grammar.ruleNames) :
    ∃ id rule, grammar.arena.ruleNamed? name = some id ∧ grammar.arena.rule? id = some rule ∧
      grammar.ruleNode? name = some rule.node := by
  obtain ⟨rule, hmem, rfl⟩ := List.mem_map.1 hname
  obtain ⟨id, hid⟩ := List.getElem?_of_mem hmem
  rw [Array.getElem?_toList] at hid
  have hnamed := (h.wellFormed.names rule.name id).2 ⟨rule, hid, rfl⟩
  have hrule : grammar.arena.rule? id = some rule := hid
  exact ⟨id, rule, hnamed, hrule, by simp [ruleNode?, hnamed, hrule]⟩

/-- **The mode only matters where alternatives compete.** Let alternatives of one rule that match
at the same offset of a text in lexer mode always end at the same offset. From any offset, as a
whole and for every rule, parser mode comes to the match that lexer mode comes to, or both fail and
the parser got no further than the lexer. -/
theorem Built.parse_uncontested (h : grammar.Built) {text : String}
    (huncontested : grammar.arena.Uncontested (.ofString text)) (start : Nat) :
    (∃ parsed lexed, grammar.parse text start .parser = .ok parsed ∧
        grammar.parse text start .lexer = .ok lexed ∧ parsed.Trails lexed) ∧
      ∀ name ∈ grammar.ruleNames, ∃ parsed lexed,
        grammar.parseRule name text start .parser = .ok parsed ∧
          grammar.parseRule name text start .lexer = .ok lexed ∧ parsed.Trails lexed := by
  have hfresh := grammar.session_serves text
  constructor
  · obtain ⟨parsed, lexed, next, next', hparse, hlex, htrails⟩ :=
      hfresh.evaluate_trails h huncontested h.root_lt start
    refine ⟨parsed, lexed, ?_, ?_, htrails⟩
    · exact congrArg (Except.map Prod.fst) hparse
    · exact congrArg (Except.map Prod.fst) hlex
  · intro name hname
    obtain ⟨id, rule, -, hrule, hnode⟩ := h.exists_ruleNode? hname
    obtain ⟨parsed, lexed, next, next', hparse, hlex, htrails⟩ :=
      hfresh.evaluate_trails h huncontested (h.wellFormed.node_lt hrule) start
    refine ⟨parsed, lexed, ?_, ?_, htrails⟩
    · rw [parseRule, Session.parseRule, show (grammar.session text).grammar = grammar from rfl,
        hnode]
      exact congrArg (Except.map Prod.fst) hparse
    · rw [parseRule, Session.parseRule, show (grammar.session text).grammar = grammar from rfl,
        hnode]
      exact congrArg (Except.map Prod.fst) hlex

/-- The texts `a!` and `abc!`: the sequence `item "!"` with the rule `item = "a" | "ab" "c"`. -/
def items : Grammar where
  arena :=
    { nodes := #[.rule 0, .primitive (.ofString "a"), .primitive (.ofString "ab"),
        .primitive (.ofString "c"), .sequence [⟨2, 0⟩, ⟨3, 0⟩], .primitive (.ofString "!"),
        .sequence [⟨0, 0⟩, ⟨5, 0⟩]]
      rules := #[⟨"item", ⟨0, 0⟩, [⟨1, 0⟩, ⟨4, 0⟩]⟩]
      names := [("item", 0)] }
  root := ⟨6, 0⟩
  config := {}

theorem items_built : items.Built :=
  ⟨0, [.rule "item", .literal "a", .literal "ab", .literal "c", .sequence [⟨2, 0⟩, ⟨3, 0⟩],
    .literal "!", .sequence [⟨0, 0⟩, ⟨5, 0⟩], .bind ⟨0, 0⟩ [⟨1, 0⟩, ⟨4, 0⟩]], ⟨6, 0⟩, {},
    by decide +kernel⟩

/-- In the text `abd` only `"a"` matches. The lexer tries `"ab" "c"` as well and fails further. -/
theorem items_parse_uncontested :
    items.Built ∧ items.arena.Uncontested (.ofString "abd") ∧
      items.parse "abd" 0 .parser = .ok (.noMatchAt 1) ∧
      items.parse "abd" 0 .lexer = .ok (.noMatchAt 2) ∧
      (Outcome.noMatchAt 1).Trails (.noMatchAt 2) := by
  have huncontested : items.arena.Uncontested (.ofString "abd") := by decide +kernel
  have hparse : items.parse "abd" 0 .parser = .ok (.noMatchAt 1) := by decide +kernel
  have hlex : items.parse "abd" 0 .lexer = .ok (.noMatchAt 2) := by decide +kernel
  obtain ⟨⟨parsed, lexed, hparsed, hlexed, htrails⟩, -⟩ :=
    items_built.parse_uncontested huncontested 0
  rw [hparse] at hparsed
  rw [hlex] at hlexed
  cases hparsed
  cases hlexed
  exact ⟨items_built, huncontested, hparse, hlex, htrails⟩

end Grammar

end Packrat
