import Packrat.Proofs.Building
import Packrat.Proofs.CycleSearch

/-!
# What a grammar is built of

* `Builder.build_eq`: what becomes of a builder, in the order in which it is checked.
* `Builder.frozen_wellFormed`: the arena of a builder whose rules are all bound.
* `Grammar.Built`: a grammar came out of a builder; `Built.wellFormed`, `Built.root_lt` and
  `Built.findCycle?_eq_none` say what is known of it then.
* `Grammar.onlyAs`: a small grammar that is built.
-/

namespace Packrat

/-- The rule that a declared rule becomes, without alternatives as long as it is not bound. -/
def PendingRule.toRule (pending : PendingRule) : Rule :=
  ⟨pending.name, pending.node, pending.alternatives.getD []⟩

namespace Builder

/-- The first declared rule that is not bound. -/
def unbound? (builder : Builder) : Option PendingRule :=
  builder.rules.toList.find? (·.alternatives.isNone)

/-- The nodes and rules put together so far. -/
def frozen (builder : Builder) : Arena :=
  ⟨builder.nodes, (builder.rules.toList.map PendingRule.toRule).toArray, builder.names⟩

variable {builder : Builder}

theorem mapM_resolved (pendings : List PendingRule) :
    pendings.mapM resolved =
      match pendings.find? (·.alternatives.isNone) with
      | some pending => .error (.unresolvedRule pending.name)
      | none => .ok (pendings.map PendingRule.toRule) := by
  induction pendings with
  | nil => rfl
  | cons pending rest ih =>
    rw [List.mapM_cons, ih]
    cases halt : pending.alternatives with
    | none =>
      simp only [resolved, halt, List.find?_cons, Option.isNone_none]
      rfl
    | some alternatives =>
      simp only [resolved, halt, List.find?_cons, Option.isNone_some]
      cases rest.find? (·.alternatives.isNone) with
      | some other => rfl
      | none =>
        have hrule : pending.toRule = ⟨pending.name, pending.node, alternatives⟩ := by
          rw [PendingRule.toRule, halt, Option.getD_some]
        rw [List.map_cons, hrule]
        rfl

theorem arena_eq (builder : Builder) :
    builder.arena =
      match builder.unbound? with
      | some pending => .error (.unresolvedRule pending.name)
      | none => .ok builder.frozen := by
  rw [arena, mapM_resolved, unbound?]
  cases builder.rules.toList.find? (·.alternatives.isNone) <;> rfl

/-- **What becomes of a builder.** The root is checked first, then whether all rules are bound,
then whether one comes back to itself. -/
theorem build_eq (builder : Builder) (root : NodeId) (config : Config) :
    builder.build root config =
      if builder.owns root = true then
        match builder.unbound? with
        | some pending => .error (.unresolvedRule pending.name)
        | none =>
          match builder.frozen.leadsTo.findCycle? with
          | some cycle => .error (.unboundedRecursion (cycleNames builder.frozen cycle))
          | none => .ok ⟨builder.frozen, root, config⟩
      else .error (.unknownParser root.index) := by
  unfold build check
  rw [arena_eq]
  by_cases howns : builder.owns root = true
  · rw [if_pos howns, if_pos howns]
    cases builder.unbound? <;> rfl
  · rw [if_neg howns, if_neg howns]
    rfl

theorem rule?_frozen_of {id : RuleId} {pending : PendingRule}
    (h : builder.rules[id]? = some pending) : builder.frozen.rule? id = some pending.toRule := by
  simp [frozen, Arena.rule?, h]

theorem rule?_frozen {id : RuleId} {rule : Rule} (h : builder.frozen.rule? id = some rule) :
    ∃ pending, builder.rules[id]? = some pending ∧ rule = pending.toRule := by
  simp only [frozen, Arena.rule?, List.getElem?_toArray, List.getElem?_map,
    Array.getElem?_toList] at h
  obtain ⟨pending, hid, rfl⟩ := Option.map_eq_some_iff.1 h
  exact ⟨pending, hid, rfl⟩

theorem alternatives_of_unbound?_eq_none (hbound : builder.unbound? = none) {id : Nat}
    {pending : PendingRule} (hid : builder.rules[id]? = some pending) :
    pending.alternatives = some pending.toRule.alternatives := by
  rw [unbound?, List.find?_eq_none] at hbound
  have := hbound pending (Array.mem_toList_iff.2 (Array.mem_of_getElem? hid))
  cases halt : pending.alternatives with
  | none => simp [halt] at this
  | some alternatives => simp [PendingRule.toRule, halt]

/-- **Where all rules are bound** a builder holds a well-formed arena. -/
theorem frozen_wellFormed (h : builder.WellFormed) (hbound : builder.unbound? = none) :
    builder.frozen.WellFormed := by
  have halts : ∀ id rule, builder.frozen.rule? id = some rule →
      rule.alternatives ≠ [] ∧ ∀ a ∈ rule.alternatives, builder.owns a = true := by
    intro id rule hrule
    obtain ⟨pending, hid, rfl⟩ := rule?_frozen hrule
    exact h.alternatives id pending _ hid (alternatives_of_unbound?_eq_none hbound hid)
  constructor
  · intro place children hplace child hc
    exact (h.child place children hplace child hc).2
  · intro place id hplace
    obtain ⟨pending, hid, -⟩ := h.rule place id hplace
    simpa [frozen] using (Array.getElem?_eq_some_iff.1 hid).1
  · intro id rule hrule
    obtain ⟨pending, hid, rfl⟩ := rule?_frozen hrule
    exact (h.node id pending hid).2
  · intro id rule hrule
    exact (halts id rule hrule).1
  · intro id rule hrule alternative ha
    exact (owns_iff.1 ((halts id rule hrule).2 alternative ha)).2
  · intro name id
    rw [Arena.ruleNamed?, frozen, h.names]
    constructor
    · rintro ⟨pending, hid, hname⟩
      exact ⟨pending.toRule, rule?_frozen_of hid, hname⟩
    · rintro ⟨rule, hrule, hname⟩
      obtain ⟨pending, hid, rfl⟩ := rule?_frozen hrule
      exact ⟨pending, hid, hname⟩

end Builder

namespace Grammar

/-- The grammar came out of a builder, after any steps of it. -/
def Built (grammar : Grammar) : Prop :=
  ∃ (tag : Nat) (operations : List Builder.Operation) (root : NodeId) (config : Config),
    ((Builder.new tag).run operations).2.build root config = .ok grammar

variable {grammar : Grammar}

theorem Built.exists_builder (h : grammar.Built) :
    ∃ builder : Builder, builder.WellFormed ∧ builder.unbound? = none ∧
      builder.frozen = grammar.arena ∧ builder.owns grammar.root = true ∧
      grammar.arena.leadsTo.findCycle? = none := by
  obtain ⟨tag, operations, root, config, h⟩ := h
  rw [Builder.build_eq] at h
  split_ifs at h with howns
  split at h
  · cases h
  · rename_i hbound
    split at h
    · cases h
    · rename_i hcycle
      cases h
      exact ⟨_, (Builder.new_wellFormed tag).run operations, hbound, rfl, howns, hcycle⟩

theorem Built.wellFormed (h : grammar.Built) : grammar.arena.WellFormed := by
  obtain ⟨builder, hbuilder, hbound, hfrozen, -, -⟩ := h.exists_builder
  rw [← hfrozen]
  exact Builder.frozen_wellFormed hbuilder hbound

theorem Built.root_lt (h : grammar.Built) : grammar.root.index < grammar.arena.nodes.size := by
  obtain ⟨builder, -, -, hfrozen, howns, -⟩ := h.exists_builder
  rw [← hfrozen]
  exact (Builder.owns_iff.1 howns).2

theorem Built.findCycle?_eq_none (h : grammar.Built) :
    grammar.arena.leadsTo.findCycle? = none := by
  obtain ⟨builder, -, -, -, -, hcycle⟩ := h.exists_builder
  exact hcycle

/-- A rule of a built grammar is found by its name, and its node is in the arena. -/
theorem Built.ruleNode?_lt (h : grammar.Built) {name : String} {id : NodeId}
    (hid : grammar.ruleNode? name = some id) : id.index < grammar.arena.nodes.size := by
  unfold ruleNode? at hid
  obtain ⟨place, -, hid⟩ := Option.bind_eq_some_iff.1 hid
  obtain ⟨rule, hrule, hid⟩ := Option.bind_eq_some_iff.1 hid
  cases hid
  exact h.wellFormed.node_lt hrule

/-- The texts of no characters but `a`: the rule `as = "a" as | EOF`. -/
def onlyAs : Grammar where
  arena :=
    { nodes := #[.primitive (.ofString "a"), .rule 0, .sequence [⟨0, 0⟩, ⟨1, 0⟩], .primitive .eof]
      rules := #[⟨"as", ⟨1, 0⟩, [⟨2, 0⟩, ⟨3, 0⟩]⟩]
      names := [("as", 0)] }
  root := ⟨1, 0⟩
  config := {}

theorem onlyAs_built : onlyAs.Built :=
  ⟨0, [.literal "a", .rule "as", .sequence [⟨0, 0⟩, ⟨1, 0⟩], .eof, .bind ⟨1, 0⟩ [⟨2, 0⟩, ⟨3, 0⟩]],
    ⟨1, 0⟩, {}, by decide +kernel⟩

end Grammar

end Packrat
