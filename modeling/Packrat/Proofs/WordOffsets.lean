import Packrat.Primitive.Word
import Packrat.Proofs.Built
import Packrat.Proofs.LeadingRules
import Packrat.Proofs.PlainRun
import Packrat.Session

/-!
# Primitives at every offset

At offsets of 64 bits a primitive asks for the end of the text before it moves an offset on, or the
sum is cut off and then too short for what it is compared with. So nothing wraps around.

* `Word.toNat_addCut`: a sum that is cut off is a minimum.
* `Primitive.attemptWord_eq`: every plain sum fits, and the attempt is the one at offsets of any
  size.
* `Session.evaluate_primitive`: a call for a node that is a primitive is one attempt of it.
* `Builder.exists_build_primitive`: a primitive can be built alone.
* `Primitive.attemptWord_exact`: **alone and in a grammar, primitives match what they should at
  every offset of 64 bits.**
-/

namespace Packrat

open Evaluation

namespace Word

variable {a b : UInt64}

theorem add?_eq_some (h : a.toNat + b.toNat < UInt64.size) :
    ∃ c, add? a b = some c ∧ c.toNat = a.toNat + b.toNat := by
  refine ⟨a + b, by rw [add?, if_pos h], ?_⟩
  rw [UInt64.toNat_add]
  exact Nat.mod_eq_of_lt h

theorem toNat_addCut (a b : UInt64) :
    (addCut a b).toNat = min (a.toNat + b.toNat) (UInt64.size - 1) := by
  have hlast : last.toNat = UInt64.size - 1 := by decide
  by_cases h : a.toNat + b.toNat < UInt64.size
  · obtain ⟨c, hc, hsum⟩ := add?_eq_some h
    rw [addCut, hc, Option.getD_some, hsum]
    omega
  · rw [addCut, add?, if_neg h, Option.getD_none, hlast]
    omega

end Word

namespace Input

variable {input : Input} {pos : Nat}

theorem toNat_wordLength (h : input.length < UInt64.size) :
    input.wordLength.toNat = input.length := UInt64.toNat_ofNat_of_lt' h

theorem part?_eq_some_iff {start stop : UInt64} {part : Array Char}
    (h : input.length < UInt64.size) :
    input.part? start stop = some part ↔
      start.toNat ≤ stop.toNat ∧ stop.toNat ≤ input.length ∧
        input.chars.extract start.toNat stop.toNat = part := by
  have hinside : (start ≤ stop ∧ stop ≤ input.wordLength) ↔
      start.toNat ≤ stop.toNat ∧ stop.toNat ≤ input.length := by
    rw [UInt64.le_iff_toNat_le, UInt64.le_iff_toNat_le, toNat_wordLength h]
  rw [part?, Option.ite_none_right_eq_some, hinside, and_assoc, Option.some_inj]

end Input

namespace Primitive

variable {p : Primitive} {input : Input}

section Words

variable (hlength : input.length < UInt64.size) {offset : UInt64}
include hlength

theorem toOutcome_failWord (offset : UInt64) :
    (failWord input offset).toOutcome = .noMatchAt (min offset.toNat input.length) := by
  rw [failWord, WordOutcome.toOutcome, UInt64.toNat_min, Input.toNat_wordLength hlength]

/-- An offset inside the text can be moved on by one. -/
theorem add?_one (hoffset : offset.toNat < input.length) :
    ∃ outcome, (Word.add? offset 1).map (WordOutcome.matched offset) = some outcome ∧
      outcome.toOutcome = .ofBounds offset.toNat (offset.toNat + 1) := by
  have hone : (1 : UInt64).toNat = 1 := UInt64.toNat_one
  obtain ⟨stop, hstop, hsum⟩ := Word.add?_eq_some (a := offset) (b := 1) (by omega)
  refine ⟨.matched offset stop, by rw [hstop, Option.map_some], ?_⟩
  rw [WordOutcome.toOutcome, hsum, hone]

theorem takeWord_eq (wanted : Char → Bool) (offset : UInt64) :
    ∃ outcome, takeWord wanted input offset = some outcome ∧
      outcome.toOutcome =
        if (input.charAt? offset.toNat).any wanted then .ofBounds offset.toNat (offset.toNat + 1)
        else .noMatchAt (min offset.toNat input.length) := by
  have hfail := toOutcome_failWord hlength offset
  unfold takeWord
  cases hchar : input.charAt? offset.toNat with
  | none => exact ⟨_, rfl, by simpa using hfail⟩
  | some c =>
    have hoffset : offset.toNat < input.length := Input.isSome_charAt?.1 (by rw [hchar]; rfl)
    by_cases hwanted : wanted c = true
    · obtain ⟨outcome, hmoved, hout⟩ := add?_one hlength hoffset
      exact ⟨outcome, by simpa [hwanted] using hmoved, by simpa [hwanted] using hout⟩
    · exact ⟨failWord input offset, by simp [hwanted], by simpa [hwanted] using hfail⟩

/-- The part of the text that a literal is compared with is the literal where it matches. This is so
also where the sum was cut off: the part is too short then. -/
theorem part?_addCut {text : Array Char} (htext : text.size < UInt64.size) :
    input.part? offset (Word.addCut offset (.ofNat text.size)) = some text ↔
      (literal text).MatchesAt input offset.toNat := by
  have hsize : (UInt64.ofNat text.size).toNat = text.size := UInt64.toNat_ofNat_of_lt' htext
  have hcut := Word.toNat_addCut offset (.ofNat text.size)
  have hoffset : offset.toNat < UInt64.size := offset.toNat_lt
  rw [Input.part?_eq_some_iff hlength, matchesAt_literal, hcut, hsize]
  have hextract : ∀ stop, (input.chars.extract offset.toNat stop).toList =
      (input.chars.toList.drop offset.toNat).take (stop - offset.toNat) := by
    intro stop
    rw [Array.toList_extract, List.extract_eq_take_drop]
  constructor
  · rintro ⟨hle, hstop, hpart⟩
    -- the literal is as long as the part, so the sum was not cut off
    have hlong := congrArg Array.size hpart
    rw [Array.size_extract] at hlong
    rw [Input.length] at hstop hlength
    have hfits : offset.toNat + text.size ≤ input.chars.size := by omega
    refine ⟨hfits, ?_⟩
    rw [← hpart, hextract]
    exact List.take_prefix _ _
  · rintro ⟨hfits, hprefix⟩
    have hplain : min (offset.toNat + text.size) (UInt64.size - 1) = offset.toNat + text.size := by
      omega
    rw [hplain]
    refine ⟨by omega, hfits, ?_⟩
    rw [← Array.toList_inj, hextract, Nat.add_sub_cancel_left, ← Array.length_toList]
    exact (List.prefix_iff_eq_take.1 hprefix).symm

/-- **At offsets of 64 bits the attempt is the same**, and every sum that it needs fits. -/
theorem attemptWord_eq (hwidth : p.width < UInt64.size) (offset : UInt64) :
    ∃ outcome, p.attemptWord input offset = some outcome ∧
      outcome.toOutcome = p.attempt input offset.toNat := by
  have hfail := toOutcome_failWord hlength offset
  cases p with
  | any =>
    have hlt : offset < input.wordLength ↔ offset.toNat < input.length := by
      rw [UInt64.lt_iff_toNat_lt, Input.toNat_wordLength hlength]
    simp only [attemptWord, attempt, accepts, Input.isSome_charAt?, hlt]
    by_cases hoffset : offset.toNat < input.length
    · rw [if_pos hoffset, if_pos hoffset]
      exact add?_one hlength hoffset
    · rw [if_neg hoffset, if_neg hoffset]
      exact ⟨_, rfl, hfail⟩
  | range chars => exact takeWord_eq hlength chars.contains offset
  | set chars => exact takeWord_eq hlength chars.contains offset
  | literal text =>
    simp only [attemptWord, attempt_eq, part?_addCut hlength hwidth]
    by_cases hmatch : (literal text).MatchesAt input offset.toNat
    · rw [if_pos hmatch, if_pos hmatch]
      refine ⟨_, rfl, ?_⟩
      have hsize : (UInt64.ofNat text.size).toNat = text.size := UInt64.toNat_ofNat_of_lt' hwidth
      have hinside : offset.toNat + text.size ≤ input.length := hmatch.le_length
      have hstop : (Word.addCut offset (.ofNat text.size)).toNat = offset.toNat + text.size := by
        rw [Word.toNat_addCut, hsize]
        omega
      rw [WordOutcome.toOutcome, hstop]
      rfl
    · rw [if_neg hmatch, if_neg hmatch]
      exact ⟨_, rfl, hfail⟩
  | eof =>
    have heq : offset = input.wordLength ↔ offset.toNat = input.length := by
      rw [← UInt64.toNat_inj, Input.toNat_wordLength hlength]
    simp only [attemptWord, attempt, accepts, beq_iff_eq, heq]
    by_cases hoffset : offset.toNat = input.length
    · rw [if_pos hoffset, if_pos hoffset]
      exact ⟨_, rfl, rfl⟩
    · rw [if_neg hoffset, if_neg hoffset]
      exact ⟨_, rfl, hfail⟩

end Words

end Primitive

/-- A primitive is tried once, with a table or without, and a table stays as it is. -/
theorem run_primitive {arena : Arena} {id : NodeId} {p : Primitive}
    (hnode : arena.node? id = some (.primitive p)) (input : Input) (mode : Mode)
    (depth start : Nat) (table? : Option Memo.Table) :
    Evaluation.run (evalNode arena input mode (depth + 1) id start) start table? =
      .ok (⟨p.attempt input start, noted (p.attempt input start) start⟩, table?) := by
  cases table? with
  | none =>
    simp only [Evaluation.run, evalNode, matchNode, hnode, tryPrimitive]
    cases p.attempt input start <;> rfl
  | some table =>
    simp only [Evaluation.run, evalNode, matchNode, hnode, tryPrimitive]
    cases p.attempt input start <;> rfl

/-- **A call for a node that is a primitive is one attempt of it**, in every session. -/
theorem Session.evaluate_primitive {session : Session} {id : NodeId} {p : Primitive}
    (hnode : session.grammar.arena.node? id = some (.primitive p)) (start : Nat) (mode : Mode) :
    session.evaluate id start mode = .ok (p.attempt session.input start, session) := by
  unfold evaluate
  by_cases hstart : start > session.input.length
  · -- behind the end nothing is tried, and nothing would match
    have hmatch : ¬ p.MatchesAt session.input start := by
      intro h
      have := h.le_length
      omega
    rw [if_pos hstart, Primitive.attempt_eq, if_neg hmatch, Nat.min_eq_right (by omega)]
  · have hlimit : session.grammar.arena.depthLimit (session.input.length - start) ≠ 0 := by
      simp [Arena.depthLimit]
    obtain ⟨depth, hdepth⟩ := Nat.exists_eq_succ_of_ne_zero hlimit
    have hreport : (Reached.mk (p.attempt session.input start)
        (noted (p.attempt session.input start) start)).report = p.attempt session.input start := by
      rw [Primitive.attempt_eq, Nat.min_eq_left (by omega)]
      split
      · rfl
      · simp [Reached.report, noted, NoMatch.deeper]
    rw [if_neg hstart]
    simp only [Evaluation.node, hdepth]
    rw [run_primitive hnode]
    simp only [hreport]

namespace Builder

variable {builder : Builder} {root : NodeId}

/-- Without rules there is nothing to refuse but the root. -/
theorem build_of_rules_eq_empty (hrules : builder.rules = #[]) (howns : builder.owns root = true)
    (config : Config) : builder.build root config = .ok ⟨builder.frozen, root, config⟩ := by
  have hbound : builder.unbound? = none := by rw [unbound?, hrules]; rfl
  have hcycle : builder.frozen.leadsTo.findCycle? = none := by
    have horder : builder.frozen.leadsTo.order = 0 := by
      rw [Arena.order_leadsTo, frozen, hrules]
      rfl
    rw [Digraph.findCycle?, horder]
    rfl
  rw [build_eq, if_pos howns, hbound, hcycle]

/-- A primitive can be built alone. -/
theorem exists_build_primitive (tag : Nat) (p : Primitive) (config : Config) :
    ∃ grammar, ((new tag).push (.primitive p)).2.build ((new tag).push (.primitive p)).1 config =
        .ok grammar ∧
      grammar.arena.node? grammar.root = some (.primitive p) ∧ grammar.config = config :=
  ⟨_, build_of_rules_eq_empty rfl (owns_iff.2 ⟨rfl, Nat.zero_lt_one⟩) config, rfl, rfl⟩

end Builder

namespace Primitive

/-- **Primitives are exact at every offset of 64 bits, alone and in a grammar.** No sum of offsets
fails to fit, and the outcome is the one at offsets of any size, in every grammar with the primitive
as its root and in both modes. It is a match of the primitive's width, inside the text, where the
text falls apart as the primitive says, and otherwise a failure at the offset or at the end of the
text, whichever comes first. The empty literal matches exactly up to the end of the text. -/
theorem attemptWord_exact (p : Primitive) (text : String) (offset : UInt64)
    (htext : text.length < UInt64.size) (hwidth : p.width < UInt64.size) :
    ∃ outcome, p.attemptWord (.ofString text) offset = some outcome ∧
      outcome.toOutcome = p.attempt (.ofString text) offset.toNat ∧
      (∀ (grammar : Grammar) (mode : Mode),
        grammar.arena.node? grammar.root = some (.primitive p) →
          grammar.parse text offset.toNat mode = .ok outcome.toOutcome) ∧
      (∀ (tag : Nat) (config : Config), ∃ grammar,
        ((Builder.new tag).push (.primitive p)).2.build
            ((Builder.new tag).push (.primitive p)).1 config = .ok grammar ∧
          grammar.arena.node? grammar.root = some (.primitive p) ∧ grammar.config = config) ∧
      (p.MatchesAt (.ofString text) offset.toNat →
        offset.toNat + p.width ≤ text.length ∧
          outcome.toOutcome = .ofBounds offset.toNat (offset.toNat + p.width)) ∧
      (¬ p.MatchesAt (.ofString text) offset.toNat →
        outcome.toOutcome = .noMatchAt (min offset.toNat text.length)) ∧
      ((literal #[]).MatchesAt (.ofString text) offset.toNat ↔ offset.toNat ≤ text.length) := by
  have hlength : (Input.ofString text).length < UInt64.size := by
    rw [Input.length_ofString]
    exact htext
  obtain ⟨outcome, hword, hout⟩ := attemptWord_eq hlength hwidth offset
  have hattempt := attempt_eq p (.ofString text) offset.toNat
  refine ⟨outcome, hword, hout, ?_, ?_, ?_, ?_, ?_⟩
  · intro grammar mode hroot
    have hcall : (grammar.session text).evaluate grammar.root offset.toNat mode =
        .ok (p.attempt (.ofString text) offset.toNat, grammar.session text) :=
      Session.evaluate_primitive hroot offset.toNat mode
    rw [Grammar.parse, Session.parse, hout]
    show ((grammar.session text).evaluate grammar.root offset.toNat mode).map Prod.fst = _
    rw [hcall]
    rfl
  · intro tag config
    exact Builder.exists_build_primitive tag p config
  · intro hmatch
    have hle := hmatch.le_length
    rw [Input.length_ofString] at hle
    refine ⟨hle, ?_⟩
    rw [hout, hattempt, if_pos hmatch]
  · intro hmatch
    rw [hout, hattempt, if_neg hmatch, Input.length_ofString]
  · rw [matchesAt_literal, Input.length_ofString]
    simp

/-- A literal matches behind another character, and fails at the end of the text from the last
offset there is, where the sum is cut off. -/
theorem attemptWord_exact_last :
    "xab".length < UInt64.size ∧ (ofString "ab").width < UInt64.size ∧
      (∃ outcome, (ofString "ab").attemptWord (.ofString "xab") 1 = some outcome ∧
        outcome.toOutcome = .ofBounds 1 3) ∧
      ∃ outcome, (ofString "ab").attemptWord (.ofString "xab") Word.last = some outcome ∧
        outcome.toOutcome = .noMatchAt 3 ∧
        ∃ grammar : Grammar, ∀ mode,
          grammar.parse "xab" Word.last.toNat mode = .ok (.noMatchAt 3) := by
  have htext : "xab".length < UInt64.size := by decide
  have hwidth : (ofString "ab").width < UInt64.size := by decide
  refine ⟨htext, hwidth, ?_, ?_⟩
  · obtain ⟨outcome, hword, -, -, -, hmatched, -⟩ :=
      attemptWord_exact (ofString "ab") "xab" 1 htext hwidth
    have hmatch : (ofString "ab").MatchesAt (.ofString "xab") (1 : UInt64).toNat :=
      ⟨['x'], ['a', 'b'], [], rfl, rfl, .literal _ _⟩
    exact ⟨outcome, hword, (hmatched hmatch).2⟩
  · obtain ⟨outcome, hword, -, hgrammar, hbuild, -, hfail, -⟩ :=
      attemptWord_exact (ofString "ab") "xab" Word.last htext hwidth
    have hmatch : ¬ (ofString "ab").MatchesAt (.ofString "xab") Word.last.toNat := by
      intro h
      exact absurd h.le_length (by decide)
    have hout := hfail hmatch
    obtain ⟨grammar, -, hroot, -⟩ := hbuild 0 {}
    refine ⟨outcome, hword, hout, grammar, ?_⟩
    intro mode
    rw [hgrammar grammar mode hroot, hout]
    rfl

end Primitive

end Packrat
