import Mathlib.Data.List.Nodup
import Packrat.Proofs.CheckedLookups
import Packrat.Proofs.Tokenizing

/-!
# What builders hold, and that nothing is missed

Whatever is done with a builder, and whatever of it fails, its nodes and rules refer to each other
within bounds. So nothing that is looked up in a grammar that it builds is missing.

* `Builder.run_tag`, `WellFormed.nodup_names`: tags stay, names differ.
* `Grammar.Built.tokenize_ne_fault`: tokenizing never gives up.
* `Builder.run_inRange`: **the invariant of builders, and no lookup out of range.**
-/

namespace Packrat

namespace Builder

variable {builder next : Builder} {added : Option NodeId}

theorem Step.tag_eq (hstep : Step builder added next) : next.tag = builder.tag := by
  cases hstep <;> rfl

/-- The tag of a builder stays. -/
theorem run_tag (builder : Builder) (operations : List Operation) :
    (builder.run operations).2.tag = builder.tag := by
  induction operations generalizing builder with
  | nil => rfl
  | cons operation rest ih =>
    rw [run]
    split
    · exact ih builder
    · rename_i added next hstep
      rw [ih, (apply_step hstep).tag_eq]

/-- Two nodes do not stand for the same rule. -/
theorem WellFormed.place_eq (h : builder.WellFormed) {place place' : Nat} {id : RuleId}
    (hplace : builder.nodes[place]? = some (.rule id))
    (hplace' : builder.nodes[place']? = some (.rule id)) : place = place' := by
  obtain ⟨pending, hid, hnode⟩ := h.rule place id hplace
  obtain ⟨pending', hid', hnode'⟩ := h.rule place' id hplace'
  rw [hid] at hid'
  cases hid'
  rw [hnode] at hnode'
  cases hnode'
  rfl

/-- The names of rules differ. -/
theorem WellFormed.nodup_names (h : builder.WellFormed) :
    (builder.rules.toList.map PendingRule.name).Nodup := by
  rw [List.nodup_iff_getElem?_ne_getElem?]
  intro i j hlt hj hsame
  rw [List.length_map, Array.length_toList] at hj
  simp only [List.getElem?_map, Array.getElem?_toList] at hsame
  obtain ⟨first, hfirst⟩ : ∃ first, builder.rules[i]? = some first :=
    ⟨_, Array.getElem?_eq_getElem (Nat.lt_trans hlt hj)⟩
  obtain ⟨second, hsecond⟩ : ∃ second, builder.rules[j]? = some second :=
    ⟨_, Array.getElem?_eq_getElem hj⟩
  rw [hfirst, hsecond, Option.map_some, Option.map_some, Option.some.injEq] at hsame
  -- the name is found at both places
  have hfound := (h.names second.name i).2 ⟨first, hfirst, hsame⟩
  rw [(h.names second.name j).2 ⟨second, hsecond, rfl⟩] at hfound
  cases hfound
  exact Nat.lt_irrefl _ hlt

/-- Where all rules are bound the arena put together so far is well formed. -/
theorem WellFormed.of_arena (h : builder.WellFormed) {arena : Arena}
    (harena : builder.arena = .ok arena) : arena.WellFormed := by
  rw [arena_eq] at harena
  split at harena
  · cases harena
  · rename_i hbound
    cases harena
    exact frozen_wellFormed h hbound

end Builder

namespace Grammar

/-- No evaluation is given up while a text is tokenized: every node, rule and kind that is looked
up on the way is there. -/
theorem Built.tokenize_ne_fault {grammar : Grammar} (h : grammar.Built) {name : String}
    {tokenizer : Tokenizer} (htokenizer : grammar.tokenizer name = .ok tokenizer) (text : String)
    (fault : Fault) : tokenizer.tokenize text ≠ .error (.evaluation fault) := by
  have hwf := Tokenizer.wellFormed_of_tokenizer h htokenizer
  obtain ⟨id, rule, -, -, rfl⟩ := (Tokenizer.tokenizer_eq_ok h).1 htokenizer
  obtain ⟨⟨result, f⟩, hrun⟩ := Tokenizer.exists_run_tokensFrom h hwf 0 0
  rw [Tokenizer.tokenize_of_run hrun]
  cases result <;> simp [Except.mapError]

end Grammar

namespace Builder

/-- **What builders hold.** After any operations, whichever of them fail, the parts of a sequence
are of the builder and stand before it; a node that stands for a rule is the node of that rule, and
the only one that stands for it; a name leads to the rule that has it, so names differ; and a bound
rule has alternatives, all of them nodes of the builder. So the check for rules that come back to
themselves misses nothing that it looks up; and for a grammar that is built no more do its notation,
which ends for each node, its rules and tokenizers by name, the calls on its sessions, and
tokenizing. -/
theorem run_inRange (tag : Nat) (operations : List Operation) :
    let builder := ((new tag).run operations).2
    (∀ (place : Nat) children, builder.nodes[place]? = some (.sequence children) →
      ∀ child ∈ children, child.owner = tag ∧ child.index < place) ∧
    (∀ (place : Nat) id, builder.nodes[place]? = some (.rule id) →
      ∃ pending, builder.rules[id]? = some pending ∧ pending.node = ⟨place, tag⟩) ∧
    (∀ (place place' : Nat) id, builder.nodes[place]? = some (.rule id) →
      builder.nodes[place']? = some (.rule id) → place = place') ∧
    (∀ name (id : Nat), builder.names.lookup name = some id ↔
      ∃ pending, builder.rules[id]? = some pending ∧ pending.name = name) ∧
    (builder.rules.toList.map PendingRule.name).Nodup ∧
    (∀ (id : Nat) pending alternatives, builder.rules[id]? = some pending →
      pending.alternatives = some alternatives →
        alternatives ≠ [] ∧ ∀ alternative ∈ alternatives,
          alternative.owner = tag ∧ alternative.index < builder.nodes.size) ∧
    (∀ arena, builder.arena = .ok arena →
      Checked.cycle arena = some (arena.leadsTo.findCycle?.map (cycleNames arena))) ∧
    ∀ root config grammar, builder.build root config = .ok grammar →
      (∀ place < grammar.arena.nodes.size,
        Checked.writtenNode grammar.arena place = some (grammar.arena.writtenNode place)) ∧
      Checked.written grammar.arena grammar.root = some grammar.written ∧
      (∀ name, Checked.ruleNode grammar name = some (grammar.ruleNode? name)) ∧
      (∀ name, Checked.tokenizer grammar name = some (grammar.tokenizer name)) ∧
      (∀ text calls (call : Session.Call),
        call.Answered grammar (((grammar.session text).calls calls).2.call call).1) ∧
      ∀ name tokenizer, grammar.tokenizer name = .ok tokenizer →
        ∀ text fault, tokenizer.tokenize text ≠ .error (.evaluation fault) := by
  intro builder
  have hwf : builder.WellFormed := (new_wellFormed tag).run operations
  have htag : builder.tag = tag := run_tag (new tag) operations
  refine ⟨?_, ?_, fun place place' id => hwf.place_eq, hwf.names, hwf.nodup_names, ?_, ?_, ?_⟩
  · intro place children hplace child hc
    rw [← htag]
    exact hwf.child place children hplace child hc
  · intro place id hplace
    rw [← htag]
    exact hwf.rule place id hplace
  · intro id pending alternatives hid halt
    obtain ⟨hne, howns⟩ := hwf.alternatives id pending alternatives hid halt
    rw [← htag]
    exact ⟨hne, fun alternative ha => owns_iff.1 (howns alternative ha)⟩
  · intro arena harena
    exact Checked.cycle_eq (hwf.of_arena harena)
  · intro root config grammar hbuild
    have hbuilt : grammar.Built := ⟨tag, operations, root, config, hbuild⟩
    have harena := hbuilt.wellFormed
    refine ⟨fun place => Checked.writtenNode_eq harena, Checked.written_eq harena hbuilt.root_lt,
      Checked.ruleNode_eq harena, Checked.tokenizer_eq harena, ?_, ?_⟩
    · intro text calls call
      have hserves := ((grammar.session_serves text).calls hbuilt calls).2
      exact (hserves.call hbuilt call).2.1
    · intro name tokenizer htokenizer text fault
      exact hbuilt.tokenize_ne_fault htokenizer text fault

/-- The operations that put the grammar of the rule `as` together. -/
theorem run_inRange_onlyAs :
    ((new 0).run [.literal "a", .rule "as", .sequence [⟨0, 0⟩, ⟨1, 0⟩], .eof,
        .bind ⟨1, 0⟩ [⟨2, 0⟩, ⟨3, 0⟩]]).2.build ⟨1, 0⟩ {} = .ok Grammar.onlyAs ∧
      Checked.written Grammar.onlyAs.arena Grammar.onlyAs.root = some Grammar.onlyAs.written := by
  have hbuild : ((new 0).run [.literal "a", .rule "as", .sequence [⟨0, 0⟩, ⟨1, 0⟩], .eof,
      .bind ⟨1, 0⟩ [⟨2, 0⟩, ⟨3, 0⟩]]).2.build ⟨1, 0⟩ {} = .ok Grammar.onlyAs := by decide +kernel
  obtain ⟨-, -, -, -, -, -, -, hgrammar⟩ := run_inRange 0 [.literal "a", .rule "as",
    .sequence [⟨0, 0⟩, ⟨1, 0⟩], .eof, .bind ⟨1, 0⟩ [⟨2, 0⟩, ⟨3, 0⟩]]
  exact ⟨hbuild, (hgrammar ⟨1, 0⟩ {} Grammar.onlyAs hbuild).2.1⟩

end Builder

end Packrat
