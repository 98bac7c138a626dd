import Packrat.Builder.Flattened
import Packrat.Proofs.Built
import Packrat.Proofs.LeadingRules
import Packrat.Proofs.NullableFixpoint

/-!
# What nesting is not asked for

A sequence is nullable if all its parts are, and it leads where its parts lead up to the first that
is not nullable. So it makes no difference whether some of its parts stand in a sequence of their
own.

* `Nullability.ofNode_parts`, `Nullability.opening_append`: nullable parts, and parts up to the
  first that is not.
* `Arena.nullability_flatten`, `Arena.leadsTo_flatten`: **nullable nodes and leading rules** are
  the same.
* `Builder.build_flatten_eq_or`: **so is the verdict** on a builder.
-/

namespace Packrat

namespace Nesting

variable {nodes : Array Node} (nesting : Nesting nodes)

theorem size_flattened : nesting.flattened.size = nodes.size := by simp [flattened]

theorem getElem?_flattened_place :
    nesting.flattened[nesting.place]? = some (.sequence nesting.parts) := by
  obtain ⟨hlt, -⟩ := Array.getElem?_eq_some_iff.1 nesting.outer_eq
  simp [flattened, hlt]

/-- All other nodes are as before. -/
theorem getElem?_flattened {place : Nat} (hne : place ≠ nesting.place) :
    nesting.flattened[place]? = nodes[place]? := by
  simp [flattened, hne.symm]

end Nesting

namespace Nullability

variable {nodes : Array Node} {known : Nullability} {front back : List NodeId}

/-- The outer sequence is nullable in either form, if the inner one is where its parts are. -/
theorem ofNode_parts (nesting : Nesting nodes)
    (hpart : known.node nesting.part = nesting.inner.all known.node) :
    known.ofNode (.sequence nesting.parts) =
      known.ofNode (.sequence (nesting.front ++ nesting.part :: nesting.back)) := by
  simp only [ofNode, Nesting.parts, List.all_append, List.all_cons, hpart, Bool.and_assoc]

/-- The opening of a sequence goes on in its second half if the first half is nullable. -/
theorem opening_append : known.opening (front ++ back) =
    known.opening front ++ if front.all known.node then known.opening back else [] := by
  induction front with
  | nil => rfl
  | cons child rest ih =>
    rw [List.cons_append, opening, opening, List.all_cons]
    cases known.node child with
    | true => rw [if_pos rfl, if_pos rfl, ih, Bool.true_and, List.cons_append]
    | false => rfl

end Nullability

namespace Arena

variable {arena : Arena} {known : Nullability} {place : Nat} {nesting : Nesting arena.nodes}

theorem WellFormed.part_lt (hwf : arena.WellFormed) (nesting : Nesting arena.nodes) :
    nesting.part.index < nesting.place :=
  hwf.child_lt nesting.place _ nesting.outer_eq nesting.part (by simp)

/-- The inner sequence is as before. -/
theorem WellFormed.getElem?_flattened_part (hwf : arena.WellFormed)
    (nesting : Nesting arena.nodes) :
    nesting.flattened[nesting.part.index]? = some (.sequence nesting.inner) := by
  rw [nesting.getElem?_flattened (Nat.ne_of_lt (hwf.part_lt nesting)), nesting.inner_eq]

/-- Where the flags of the inner sequence are in order the same is called for in either form. -/
theorem closed_flatten_iff
    (hpart : known.node nesting.part = nesting.inner.all known.node) :
    Nullability.Closed (arena.flatten nesting) known ↔ Nullability.Closed arena known := by
  have hcalled : ∀ id : NodeId, ((arena.flatten nesting).node? id).map known.ofNode =
      (arena.node? id).map known.ofNode := by
    intro id
    show nesting.flattened[id.index]?.map known.ofNode = arena.nodes[id.index]?.map known.ofNode
    by_cases hplace : id.index = nesting.place
    · rw [hplace, nesting.getElem?_flattened_place, nesting.outer_eq, Option.map_some,
        Option.map_some, Nullability.ofNode_parts nesting hpart]
    · rw [nesting.getElem?_flattened hplace]
  have hclosed : ∀ arena : Arena, Nullability.Closed arena known ↔
      (∀ id : NodeId, (arena.node? id).map known.ofNode = some true → known.node id = true) ∧
      ∀ id rule, arena.rule? id = some rule → known.ofRule rule = true → known.rule id = true := by
    intro arena
    constructor
    · intro h
      refine ⟨fun id hmap => ?_, h.rule⟩
      obtain ⟨node, hnode, hof⟩ := Option.map_eq_some_iff.1 hmap
      exact h.node id node hnode hof
    · intro h
      exact ⟨fun id node hnode hof => h.1 id (by rw [hnode, Option.map_some, hof]), h.2⟩
  rw [hclosed, hclosed]
  simp only [hcalled]
  rfl

/-- **The nullable nodes and rules are the same.** -/
theorem nullability_flatten (hwf : arena.WellFormed) (nesting : Nesting arena.nodes) :
    (arena.flatten nesting).nullability = arena.nullability := by
  have hpart : ∀ {arena : Arena} {known : Nullability}, Nullability.Fixed arena known →
      ∀ {id : NodeId} {inner : List NodeId}, arena.nodes[id.index]? = some (.sequence inner) →
        known.node id = inner.all known.node := fun hfixed _ _ hnode =>
    Bool.eq_iff_iff.2 (hfixed.node _ _ hnode)
  have hfixed := arena.nullability_fixed
  have hflat := (arena.flatten nesting).nullability_fixed
  refine nullability_eq_of_closed nesting.size_flattened rfl ?_ ?_
  · exact (closed_flatten_iff (hpart hfixed nesting.inner_eq)).2 hfixed.closed
  · exact (closed_flatten_iff (hpart hflat (hwf.getElem?_flattened_part nesting))).1 hflat.closed

/-- The opening of the outer sequence leads where it does in one sequence with the inner one. -/
theorem flatMap_opening_parts {α : Type} (lead : NodeId → List α)
    (hpart : known.node nesting.part = nesting.inner.all known.node)
    (hlead : lead nesting.part = (known.opening nesting.inner).flatMap lead) :
    (known.opening nesting.parts).flatMap lead =
      (known.opening (nesting.front ++ nesting.part :: nesting.back)).flatMap lead := by
  rw [Nesting.parts, Nullability.opening_append, Nullability.opening_append,
    Nullability.opening_append, Nullability.opening, List.all_append, hpart]
  cases nesting.front.all known.node <;> cases nesting.inner.all known.node <;>
    simp [hlead]

theorem WellFormed.lt_of_mem_parts (hwf : arena.WellFormed) {child : NodeId}
    (h : child ∈ nesting.parts) : child.index < nesting.place := by
  have houter := hwf.child_lt nesting.place _ nesting.outer_eq child
  have hinner := hwf.child_lt nesting.part.index _ nesting.inner_eq child
  rw [Nesting.parts, List.mem_append, List.mem_append] at h
  rcases h with (hfront | hin) | hback
  · exact houter (by simp [hfront])
  · exact Nat.lt_trans (hinner hin) (hwf.part_lt nesting)
  · exact houter (by simp [hback])

/-- **The leading rules of each node are the same**, in the same order. -/
theorem leading_flatten (hwf : arena.WellFormed)
    (hpart : known.node nesting.part = nesting.inner.all known.node) (place : Nat) :
    (arena.flatten nesting).leading known place = arena.leading known place := by
  induction place using Nat.strong_induction_on with
  | _ place ih =>
    by_cases hplace : place = nesting.place
    · subst hplace
      have hinner : arena.leading known nesting.part.index =
          (known.opening nesting.inner).flatMap fun child => arena.leading known child.index :=
        leading_eq_flatMap nesting.inner_eq
          (hwf.child_lt nesting.part.index _ nesting.inner_eq)
      have hflat : (arena.flatten nesting).nodes[nesting.place]? = some (.sequence nesting.parts) :=
        nesting.getElem?_flattened_place
      rw [leading_eq_flatMap hflat fun child => hwf.lt_of_mem_parts,
        leading_eq_flatMap nesting.outer_eq (hwf.child_lt nesting.place _ nesting.outer_eq),
        ← flatMap_opening_parts (fun child => arena.leading known child.index) hpart hinner]
      exact List.flatMap_congr fun child hc =>
        ih child.index (hwf.lt_of_mem_parts (mem_of_mem_opening hc))
    · have hsame : (arena.flatten nesting).nodes[place]? = arena.nodes[place]? :=
        nesting.getElem?_flattened hplace
      cases hnode : arena.nodes[place]? with
      | none => rw [leading, leading, hsame, hnode]
      | some node =>
        rw [hnode] at hsame
        cases node with
        | primitive p => rw [leading_primitive hsame, leading_primitive hnode]
        | rule id => rw [leading_rule hsame, leading_rule hnode]
        | sequence children =>
          have hlt := hwf.child_lt place children hnode
          rw [leading_eq_flatMap hsame hlt, leading_eq_flatMap hnode hlt]
          exact List.flatMap_congr fun child hc =>
            ih child.index (hlt child (mem_of_mem_opening hc))

/-- **The same rules lead to each other**, so the same cycle is found. -/
theorem leadsTo_flatten (hwf : arena.WellFormed) (nesting : Nesting arena.nodes) :
    (arena.flatten nesting).leadsTo = arena.leadsTo := by
  have hpart : arena.nullability.node nesting.part =
      nesting.inner.all arena.nullability.node :=
    Bool.eq_iff_iff.2 (arena.nullability_fixed.node _ _ nesting.inner_eq)
  have hrule : (arena.flatten nesting).leadingOfRule arena.nullability =
      arena.leadingOfRule arena.nullability := by
    funext rule
    simp only [leadingOfRule, leading_flatten hwf hpart]
    rfl
  simp only [leadsTo, nullability_flatten hwf, hrule]
  rfl

end Arena

namespace Builder

variable {builder : Builder}

/-- **The verdict on a builder** does not depend on nesting: it is refused for the same reason, or
makes grammars with sequences that are nested or not. -/
theorem build_flatten_eq_or (h : builder.WellFormed) (nesting : Nesting builder.nodes)
    (root : NodeId) (config : Config) :
    (∃ e, builder.build root config = .error e ∧
        (builder.flatten nesting).build root config = .error e) ∨
      builder.build root config = .ok ⟨builder.frozen, root, config⟩ ∧
        (builder.flatten nesting).build root config =
          .ok ⟨builder.frozen.flatten nesting, root, config⟩ := by
  have howns : (builder.flatten nesting).owns root = builder.owns root := by
    simp only [owns, flatten, nesting.size_flattened]
  rw [build_eq, build_eq, howns]
  split
  · have hunbound : (builder.flatten nesting).unbound? = builder.unbound? := rfl
    rw [hunbound]
    cases hbound : builder.unbound? with
    | some pending => exact .inl ⟨_, rfl, rfl⟩
    | none =>
      have hleads : (builder.flatten nesting).frozen.leadsTo = builder.frozen.leadsTo :=
        Arena.leadsTo_flatten (frozen_wellFormed h hbound) nesting
      simp only [hleads]
      cases builder.frozen.leadsTo.findCycle? with
      | some cycle => exact .inl ⟨_, rfl, rfl⟩
      | none => exact .inr ⟨rfl, rfl⟩
  · exact .inl ⟨_, rfl, rfl⟩

end Builder

end Packrat
