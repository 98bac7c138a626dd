import Packrat.Builder.Reordered
import Packrat.Proofs.Built

/-!
# What the order of alternatives is not asked for

A rule is nullable if any of its alternatives is, and it leads to whatever any of them leads to. So
the order of alternatives does not show in what is checked of a grammar before it is made.

* `Arena.Reordered.nullability_eq`, `leadsTo_eq`: **nullable nodes and leading rules** are the same.
* `Builder.Reordered.build_eq_or`: **so is the verdict** on a builder.
-/

namespace Packrat

section Places

variable {α β : Type} {children children' alternatives alternatives' : List NodeId}

/-- Related options are both empty or hold related values. -/
theorem rel_cases {R : α → β → Prop} {x : Option α} {y : Option β} (h : Option.Rel R x y) :
    x = none ∧ y = none ∨ ∃ a b, x = some a ∧ y = some b ∧ R a b := by
  cases h with
  | none => exact .inl ⟨rfl, rfl⟩
  | some hrel => exact .inr ⟨_, _, rfl, rfl, hrel⟩

/-- Related lists hold related elements at each place. -/
theorem rel_getElem? {R : α → β → Prop} {xs : List α} {ys : List β} (h : List.Forall₂ R xs ys)
    (i : Nat) : Option.Rel R xs[i]? ys[i]? := by
  induction h generalizing i with
  | nil => exact .none
  | cons hhead htail ih =>
    cases i with
    | zero => exact .some hhead
    | succ i => exact ih i

/-- Passes over related lists come to the same when their steps do. -/
theorem foldl_zipIdx_congr {σ : Type} {R : α → β → Prop} {step : σ → α × Nat → σ}
    {step' : σ → β × Nat → σ} (hstep : ∀ s x y i, R x y → step s (x, i) = step' s (y, i))
    {xs : List α} {ys : List β} (h : List.Forall₂ R xs ys) (s : σ) (i : Nat) :
    (xs.zipIdx i).foldl step s = (ys.zipIdx i).foldl step' s := by
  induction h generalizing s i with
  | nil => rfl
  | cons hhead htail ih =>
    rw [List.zipIdx_cons, List.zipIdx_cons, List.foldl_cons, List.foldl_cons,
      hstep s _ _ i hhead]
    exact ih _ _

/-- What some alternative has by its place, some alternative has in any order. -/
theorem SamePlaces.any_eq (h : SamePlaces alternatives alternatives') (p : Nat → Bool) :
    (alternatives.any fun id => p id.index) = alternatives'.any fun id => p id.index := by
  have hany := List.Perm.any_eq h (f := p)
  rwa [List.any_map, List.any_map] at hany

theorem SamePlaces.mem_flatMap_iff (h : SamePlaces alternatives alternatives') {f : Nat → List α}
    {a : α} : a ∈ (alternatives.flatMap fun id => f id.index) ↔
      a ∈ alternatives'.flatMap fun id => f id.index := by
  have hflat := (List.Perm.flatMap_right f h).mem_iff (a := a)
  rwa [List.flatMap_map, List.flatMap_map] at hflat

end Places

namespace Nullability

variable {known : Nullability} {children children' : List NodeId}

theorem ofNode_alike {node node' : Node} (h : node.Alike node') (known : Nullability) :
    known.ofNode node = known.ofNode node' := by
  cases h with
  | primitive p => rfl
  | sequence places_eq =>
    have hall : ∀ ids : List NodeId,
        ids.all known.node = (ids.map NodeId.index).all (known.nodes.getD · false) := by
      intro ids
      rw [List.all_map]
      rfl
    rw [ofNode, ofNode, hall, hall, places_eq]
  | rule id => rfl

theorem ofRule_reordered {rule rule' : Rule} (h : rule.Reordered rule') (known : Nullability) :
    known.ofRule rule = known.ofRule rule' :=
  h.alternatives.any_eq (known.nodes.getD · false)

variable {arena arena' : Arena}

theorem initial_reordered (h : arena.Reordered arena') : initial arena = initial arena' := by
  have hnodes : arena.nodes.size = arena'.nodes.size := h.nodes.length_eq
  have hrules : arena.rules.size = arena'.rules.size := h.rules.length_eq
  simp only [initial, Array.map_const', hnodes, hrules]

theorem pass_reordered (h : arena.Reordered arena') (known : Nullability) :
    pass arena known = pass arena' known := by
  unfold pass
  rw [foldl_zipIdx_congr (fun known node node' place hnode => ?_) h.nodes]
  · refine foldl_zipIdx_congr (fun known rule rule' id hrule => ?_) h.rules _ 0
    simp only [markRule, ofRule_reordered hrule]
  · simp only [markNode, ofNode_alike hnode]

theorem settle_reordered (h : arena.Reordered arena') (known : Nullability) :
    settle arena known = settle arena' known := by
  induction hunknown : known.unknown using Nat.strong_induction_on generalizing known with
  | _ unknown ih =>
    rw [settle, settle.eq_def arena' known]
    simp only [pass_reordered h]
    split
    · rename_i hless
      exact ih _ (hunknown ▸ hless) _ rfl
    · rfl

/-- The opening of a sequence is told by the places of its parts. -/
theorem map_index_opening (h : children.map NodeId.index = children'.map NodeId.index) :
    (known.opening children).map NodeId.index = (known.opening children').map NodeId.index := by
  induction children generalizing children' with
  | nil =>
    obtain rfl : children' = [] := List.map_eq_nil_iff.1 h.symm
    rfl
  | cons child rest ih =>
    cases children' with
    | nil => cases h
    | cons child' rest' =>
      obtain ⟨hchild, hrest⟩ := List.cons.inj h
      have hnull : known.node child = known.node child' := by
        rw [Nullability.node, hchild, Nullability.node]
      rw [opening, opening, hnull]
      split
      · rw [List.map_cons, List.map_cons, hchild, ih hrest]
      · rw [List.map_singleton, List.map_singleton, hchild]

end Nullability

namespace Arena.Reordered

variable {arena arena' : Arena} (h : arena.Reordered arena')
include h

theorem nodes_size : arena.nodes.size = arena'.nodes.size := h.nodes.length_eq

theorem rules_size : arena.rules.size = arena'.rules.size := h.rules.length_eq

theorem rel_node? (place : Nat) :
    Option.Rel Node.Alike arena.nodes[place]? arena'.nodes[place]? := by
  have hrel := rel_getElem? h.nodes place
  rwa [Array.getElem?_toList, Array.getElem?_toList] at hrel

theorem rel_rule? (id : RuleId) : Option.Rel Rule.Reordered (arena.rule? id) (arena'.rule? id) := by
  have hrel := rel_getElem? h.rules id
  rwa [Array.getElem?_toList, Array.getElem?_toList] at hrel

/-- **The nullable nodes and rules are the same.** -/
theorem nullability_eq : arena.nullability = arena'.nullability := by
  rw [nullability, nullability, Nullability.initial_reordered h, Nullability.settle_reordered h]

theorem leading_eq (known : Nullability) (place : Nat) :
    arena.leading known place = arena'.leading known place := by
  induction place using Nat.strong_induction_on with
  | _ place ih =>
    rw [leading, leading]
    rcases rel_cases (h.rel_node? place) with
      ⟨hnone, hnone'⟩ | ⟨node, node', hsome, hsome', halike⟩
    · rw [hnone, hnone']
    · rw [hsome, hsome']
      cases halike with
      | primitive p => rfl
      | rule id => rfl
      | @sequence children children' places_eq =>
        -- by places both are a list over the same opening
        have hflat : ∀ (arena : Arena) (children : List NodeId),
            ((known.opening children).flatMap fun child =>
              if child.index < place then leading arena known child.index else []) =
            ((known.opening children).map NodeId.index).flatMap fun index =>
              if index < place then leading arena known index else [] := by
          intro arena children
          rw [List.flatMap_map]
        simp only [dite_eq_ite]
        rw [hflat, hflat, Nullability.map_index_opening places_eq]
        refine List.flatMap_congr fun index _ => ?_
        split
        · rename_i hlt
          exact ih index hlt
        · rfl

theorem leadingOfRule_eq {rule rule' : Rule} (hrule : rule.Reordered rule')
    (known : Nullability) :
    arena.leadingOfRule known rule = arena'.leadingOfRule known rule' := by
  unfold leadingOfRule
  rw [h.rules_size]
  refine List.filter_congr fun id _ => ?_
  rw [Bool.eq_iff_iff, List.contains_iff_mem, List.contains_iff_mem]
  simp only [h.leading_eq]
  exact hrule.alternatives.mem_flatMap_iff

/-- **The same rules lead to each other**, so the same cycle is found. -/
theorem leadsTo_eq : arena.leadsTo = arena'.leadsTo := by
  simp only [leadsTo, h.nullability_eq, Digraph.mk.injEq]
  rw [← Array.toList_inj, Array.toList_map, Array.toList_map]
  have hrules := h.rules
  generalize arena.rules.toList = rules at hrules
  generalize arena'.rules.toList = rules' at hrules
  induction hrules with
  | nil => rfl
  | cons hrule _ ih =>
    rw [List.map_cons, List.map_cons, h.leadingOfRule_eq hrule, ih]

theorem map_name_rule? (id : RuleId) :
    (arena.rule? id).map Rule.name = (arena'.rule? id).map Rule.name := by
  rcases rel_cases (h.rel_rule? id) with
    ⟨hnone, hnone'⟩ | ⟨rule, rule', hsome, hsome', hrule⟩
  · rw [hnone, hnone']
  · rw [hsome, hsome', Option.map_some, Option.map_some, hrule.name_eq]

theorem cycleNames_eq (cycle : List RuleId) :
    Builder.cycleNames arena cycle = Builder.cycleNames arena' cycle := by
  simp only [Builder.cycleNames, h.map_name_rule?]

/-- Names lead to the same rules. -/
theorem ruleNamed?_eq (hwf : arena.WellFormed) (hwf' : arena'.WellFormed) (name : String) :
    arena.ruleNamed? name = arena'.ruleNamed? name := by
  ext id
  have hnamed : ∀ {arena : Arena}, arena.WellFormed →
      (arena.ruleNamed? name = some id ↔ (arena.rule? id).map Rule.name = some name) := by
    intro arena hwf
    rw [hwf.names, Option.map_eq_some_iff]
  rw [hnamed hwf, hnamed hwf', h.map_name_rule?]

end Arena.Reordered

namespace Builder.Reordered

variable {builder builder' : Builder} (h : builder.Reordered builder')
include h

theorem frozen : builder.frozen.Reordered builder'.frozen := by
  refine ⟨h.nodes, ?_⟩
  show List.Forall₂ Rule.Reordered (builder.rules.toList.map PendingRule.toRule)
    (builder'.rules.toList.map PendingRule.toRule)
  rw [List.forall₂_map_left_iff, List.forall₂_map_right_iff]
  refine h.rules.imp fun pending pending' hpending => ⟨hpending.name_eq, hpending.place_eq, ?_⟩
  unfold PendingRule.toRule
  rcases rel_cases hpending.alternatives with
    ⟨hnone, hnone'⟩ | ⟨alternatives, alternatives', hsome, hsome', hperm⟩
  · rw [hnone, hnone']
    exact .nil
  · rw [hsome, hsome']
    exact hperm

/-- The same rule is the first that is not bound. -/
theorem rel_unbound? : Option.Rel PendingRule.Reordered builder.unbound? builder'.unbound? := by
  have hrules := h.rules
  unfold unbound?
  generalize builder.rules.toList = rules at hrules
  generalize builder'.rules.toList = rules' at hrules
  induction hrules with
  | nil => exact .none
  | @cons pending pending' _ _ hpending _ ih =>
    have hisNone : pending.alternatives.isNone = pending'.alternatives.isNone := by
      rcases rel_cases hpending.alternatives with
        ⟨hnone, hnone'⟩ | ⟨_, _, hsome, hsome', -⟩
      · rw [hnone, hnone']
      · rw [hsome, hsome', Option.isNone_some, Option.isNone_some]
    rw [List.find?_cons, List.find?_cons, hisNone]
    cases pending'.alternatives.isNone with
    | true => exact .some hpending
    | false => exact ih

/-- **The verdict on a builder** does not depend on the order of alternatives: it is refused for the
same reason, or makes grammars that differ in that order. -/
theorem build_eq_or {root root' : NodeId} (hplace : root.index = root'.index)
    (howns : builder.owns root = true ↔ builder'.owns root' = true) (config : Config) :
    (∃ e, builder.build root config = .error e ∧ builder'.build root' config = .error e) ∨
      builder.build root config = .ok ⟨builder.frozen, root, config⟩ ∧
        builder'.build root' config = .ok ⟨builder'.frozen, root', config⟩ := by
  simp only [build_eq, howns]
  split
  · rcases rel_cases h.rel_unbound? with
      ⟨hnone, hnone'⟩ | ⟨pending, pending', hsome, hsome', hpending⟩
    · rw [hnone, hnone', h.frozen.leadsTo_eq]
      cases builder'.frozen.leadsTo.findCycle? with
      | some cycle => exact .inl ⟨_, rfl, by rw [h.frozen.cycleNames_eq]⟩
      | none => exact .inr ⟨rfl, rfl⟩
    · rw [hsome, hsome']
      exact .inl ⟨_, rfl, by rw [hpending.name_eq]⟩
  · exact .inl ⟨_, rfl, by rw [hplace]⟩

end Builder.Reordered

end Packrat
