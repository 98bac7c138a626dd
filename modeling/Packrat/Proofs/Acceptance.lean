import Packrat.Proofs.LeftRecursion

/-!
# Which grammars are accepted

* `Builder.HasEndless`: a rule of the builder never ends on the empty text.
* `Builder.findCycle?_frozen_iff`: **the check for recursion is exact.**
* `Builder.build_accepts`: when a builder makes a grammar, and why it does not otherwise.
-/

namespace Packrat.Builder

variable {builder : Builder}

/-- A rule never ends on the empty text. -/
def HasEndless (builder : Builder) : Prop :=
  ∃ id rule, builder.frozen.rule? id = some rule ∧ NeverEnds builder.frozen rule.node

theorem unbound?_eq_none_iff :
    builder.unbound? = none ↔ ∀ pending ∈ builder.rules, pending.alternatives ≠ none := by
  simp only [unbound?, List.find?_eq_none, Array.mem_toList_iff, Option.isNone_iff_eq_none, ne_eq]

/-- The rules of a cycle that is found never end. -/
theorem neverEnds_of_findCycle? (hwf : builder.frozen.WellFormed) {cycle : List RuleId}
    (h : builder.frozen.leadsTo.findCycle? = some cycle) {id : RuleId} (hid : id ∈ cycle) :
    ∃ rule, builder.frozen.rule? id = some rule ∧ NeverEnds builder.frozen rule.node := by
  have hcycle := Digraph.findCycle?_eq_some (Arena.leadsTo_closed hwf) h
  -- only a rule of the arena has an edge
  obtain ⟨w, -, hedge⟩ := hcycle.exists_edge hid
  obtain ⟨rule, hrule, -⟩ := (Arena.leadsTo_edge hwf).1 hedge
  exact ⟨rule, hrule, neverEnds_of_isCycle hwf hcycle hid hrule⟩

/-- **The check for recursion is exact**: a cycle is found just when a rule never ends. -/
theorem findCycle?_frozen_iff (hwf : builder.frozen.WellFormed) :
    (∃ cycle, builder.frozen.leadsTo.findCycle? = some cycle) ↔ builder.HasEndless := by
  constructor
  · rintro ⟨cycle, h⟩
    have hcycle := Digraph.findCycle?_eq_some (Arena.leadsTo_closed hwf) h
    obtain ⟨v, inner, rfl, -⟩ := hcycle.ends
    exact ⟨v, neverEnds_of_findCycle? hwf h (by simp)⟩
  · rintro ⟨id, rule, hrule, hnever⟩
    cases h : builder.frozen.leadsTo.findCycle? with
    | some cycle => exact ⟨cycle, rfl⟩
    | none =>
      obtain ⟨rank, hrank⟩ := Digraph.findCycle?_eq_none (Arena.leadsTo_closed hwf) h
      exact absurd hnever (not_neverEnds_of_ranked hwf hrank (hwf.node_lt hrule))

/-- The names that are reported for a cycle are those of rules that never end. -/
theorem neverEnds_of_mem_cycleNames (hwf : builder.frozen.WellFormed) {cycle : List RuleId}
    (h : builder.frozen.leadsTo.findCycle? = some cycle) {name : String}
    (hname : name ∈ cycleNames builder.frozen cycle) :
    ∃ id rule, builder.frozen.ruleNamed? name = some id ∧ builder.frozen.rule? id = some rule ∧
      NeverEnds builder.frozen rule.node := by
  obtain ⟨id, hid, hname⟩ := List.mem_filterMap.1 hname
  obtain ⟨rule, hrule, hnever⟩ := neverEnds_of_findCycle? hwf h hid
  rw [hrule] at hname
  obtain rfl : rule.name = name := Option.some.inj hname
  exact ⟨id, rule, (hwf.names rule.name id).2 ⟨rule, hrule, rfl⟩, hrule, hnever⟩

theorem cycleNames_ne_nil (hwf : builder.frozen.WellFormed) {cycle : List RuleId}
    (h : builder.frozen.leadsTo.findCycle? = some cycle) :
    cycleNames builder.frozen cycle ≠ [] := by
  have hcycle := Digraph.findCycle?_eq_some (Arena.leadsTo_closed hwf) h
  obtain ⟨v, inner, rfl, -⟩ := hcycle.ends
  have hv : v ∈ v :: inner ++ [v] := List.mem_cons_self
  obtain ⟨rule, hrule, -⟩ := neverEnds_of_findCycle? hwf h hv
  have hname : rule.name ∈ cycleNames builder.frozen (v :: inner ++ [v]) :=
    List.mem_filterMap.2 ⟨v, hv, by rw [hrule]; rfl⟩
  exact List.ne_nil_of_mem hname

/-- With a root of its own and all rules bound a builder makes a grammar, unless a rule never
ends. -/
theorem build_of_bound (hwf : builder.WellFormed) {root : NodeId}
    (howns : builder.owns root = true) (hbound : builder.unbound? = none) (config : Config) :
    ((∃ cycle, builder.build root config = .error (.unboundedRecursion cycle)) ↔
        builder.HasEndless) ∧
      (builder.build root config = .ok ⟨builder.frozen, root, config⟩ ↔ ¬ builder.HasEndless) := by
  rw [build_eq, if_pos howns, hbound, ← findCycle?_frozen_iff (frozen_wellFormed hwf hbound)]
  cases builder.frozen.leadsTo.findCycle? <;> simp

/-- The names that are reported are those of rules that never end. -/
theorem neverEnds_of_build (hwf : builder.WellFormed) {root : NodeId} {config : Config}
    {cycle : List String} (h : builder.build root config = .error (.unboundedRecursion cycle)) :
    cycle ≠ [] ∧ ∀ name ∈ cycle, ∃ id rule, builder.frozen.ruleNamed? name = some id ∧
      builder.frozen.rule? id = some rule ∧ NeverEnds builder.frozen rule.node := by
  rw [build_eq] at h
  by_cases howns : builder.owns root = true
  · rw [if_pos howns] at h
    cases hbound : builder.unbound? with
    | some pending => simp [hbound] at h
    | none =>
      have hfrozen := frozen_wellFormed hwf hbound
      simp only [hbound] at h
      split at h
      · rename_i found hfound
        cases h
        exact ⟨cycleNames_ne_nil hfrozen hfound,
          fun name hname => neverEnds_of_mem_cycleNames hfrozen hfound hname⟩
      · cases h
  · rw [if_neg howns] at h
    cases h

/-- A root of its own leaves a builder with what is wrong with its rules; the first of them that is
not bound is named. -/
theorem build_eq_unresolvedRule_iff {root : NodeId} (howns : builder.owns root = true)
    (config : Config) (name : String) :
    builder.build root config = .error (.unresolvedRule name) ↔
      ∃ pending, builder.unbound? = some pending ∧ pending.name = name := by
  rw [build_eq, if_pos howns]
  cases builder.unbound? with
  | some pending => simp
  | none => cases builder.frozen.leadsTo.findCycle? <;> simp

/-- **When a builder makes a grammar**, after any steps, and why it does not otherwise: the root is
not of the builder; else a rule was never bound, of which the first is named; else a rule never
ends on the empty text, and the names that are reported are those of such rules. -/
theorem build_accepts {tag : Nat} {operations : List Operation} {issued : List NodeId}
    (hrun : (new tag).run operations = (issued, builder)) (root : NodeId) (config : Config) :
    ((∃ index, builder.build root config = .error (.unknownParser index)) ↔ root ∉ issued) ∧
      (root ∈ issued →
        ((∃ name, builder.build root config = .error (.unresolvedRule name)) ↔
          ∃ pending ∈ builder.rules, pending.alternatives = none) ∧
        (∀ name, builder.build root config = .error (.unresolvedRule name) →
          ∃ pending, builder.rules.toList.find? (·.alternatives.isNone) = some pending ∧
            pending.name = name) ∧
        ((∀ pending ∈ builder.rules, pending.alternatives ≠ none) →
          ((∃ cycle, builder.build root config = .error (.unboundedRecursion cycle)) ↔
            builder.HasEndless) ∧
          (builder.build root config = .ok ⟨builder.frozen, root, config⟩ ↔
            ¬ builder.HasEndless))) ∧
      ∀ cycle, builder.build root config = .error (.unboundedRecursion cycle) →
        cycle ≠ [] ∧ ∀ name ∈ cycle, ∃ id rule, builder.frozen.ruleNamed? name = some id ∧
          builder.frozen.rule? id = some rule ∧ NeverEnds builder.frozen rule.node := by
  have hwf : ((new tag).run operations).2.WellFormed := (new_wellFormed tag).run operations
  have howns : ((new tag).run operations).2.owns root = true ↔
      root ∈ ((new tag).run operations).1 := owns_run_new operations
  rw [hrun] at hwf howns
  refine ⟨?_, fun hroot => ⟨?_, fun name hname => ?_, fun hall => ?_⟩,
    fun cycle hcycle => neverEnds_of_build hwf hcycle⟩
  · rw [← howns, build_eq]
    by_cases h : builder.owns root = true
    · rw [if_pos h]
      cases builder.unbound? with
      | some pending => simp [h]
      | none => cases builder.frozen.leadsTo.findCycle? <;> simp [h]
    · rw [if_neg h]
      simp [h]
  · simp only [build_eq_unresolvedRule_iff (howns.2 hroot)]
    constructor
    · rintro ⟨name, pending, hbound, -⟩
      have hnone := List.find?_some hbound
      exact ⟨pending, Array.mem_toList_iff.1 (List.mem_of_find?_eq_some hbound),
        Option.isNone_iff_eq_none.1 hnone⟩
    · rintro ⟨pending, hmem, hnone⟩
      cases hbound : builder.unbound? with
      | some first => exact ⟨first.name, first, rfl, rfl⟩
      | none => exact absurd hnone (unbound?_eq_none_iff.1 hbound pending hmem)
  · exact (build_eq_unresolvedRule_iff (howns.2 hroot) config name).1 hname
  · exact build_of_bound hwf (howns.2 hroot) (unbound?_eq_none_iff.2 hall) config

/-- The rules `a = b | "x"` and `b = a` lead to each other, so neither ever ends. -/
theorem build_accepts_left_recursion :
    ∃ issued builder,
      (new 0).run [.rule "a", .rule "b", .literal "x", .bind ⟨0, 0⟩ [⟨1, 0⟩, ⟨2, 0⟩],
        .setTarget ⟨1, 0⟩ ⟨0, 0⟩] = (issued, builder) ∧
      builder.build ⟨0, 0⟩ {} = .error (.unboundedRecursion ["a", "b", "a"]) ∧
      ∀ name ∈ ["a", "b", "a"], ∃ id rule, builder.frozen.ruleNamed? name = some id ∧
        builder.frozen.rule? id = some rule ∧ NeverEnds builder.frozen rule.node := by
  refine ⟨_, _, rfl, ?_⟩
  have hbuild : ((new 0).run [.rule "a", .rule "b", .literal "x",
      .bind ⟨0, 0⟩ [⟨1, 0⟩, ⟨2, 0⟩], .setTarget ⟨1, 0⟩ ⟨0, 0⟩]).2.build ⟨0, 0⟩ {} =
        .error (.unboundedRecursion ["a", "b", "a"]) := by decide +kernel
  exact ⟨hbuild, ((build_accepts rfl ⟨0, 0⟩ {}).2.2 _ hbuild).2⟩

end Packrat.Builder
