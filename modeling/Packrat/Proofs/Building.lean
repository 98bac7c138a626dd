import Packrat.Builder
import Packrat.Proofs.Run

/-!
# What building keeps

A step that succeeds adds one node, or binds one rule (`Step`, `apply_step`). From there:

* `WellFormed.run`: after any steps the parts of a sequence stand before it, rules and their
  nodes belong to each other, and a bound rule has alternatives, all of them in the arena.
* `owns_run_new`: the references handed out are those that the builder takes.
* `Arena.WellFormed`: what building leaves of all this in a grammar.
-/

namespace Packrat

/-- The parts of a sequence stand before it, rules and their nodes belong to each other, rules
have alternatives in the arena, and each is found by its name. -/
structure Arena.WellFormed (arena : Arena) : Prop where
  child_lt : ∀ (place : Nat) children, arena.nodes[place]? = some (Node.sequence children) →
    ∀ child ∈ children, child.index < place
  rule_lt : ∀ (place : Nat) id, arena.nodes[place]? = some (Node.rule id) → id < arena.rules.size
  rule_node : ∀ id rule, arena.rule? id = some rule → arena.node? rule.node = some (.rule id)
  alternatives_ne : ∀ id rule, arena.rule? id = some rule → rule.alternatives ≠ []
  alternative_lt : ∀ id rule, arena.rule? id = some rule →
    ∀ alternative ∈ rule.alternatives, alternative.index < arena.nodes.size
  names : ∀ name id, arena.ruleNamed? name = some id ↔
    ∃ rule, arena.rule? id = some rule ∧ rule.name = name

namespace Arena

variable {arena : Arena} {id : NodeId} {rid : RuleId} {rule : Rule}

theorem exists_node (h : id.index < arena.nodes.size) : ∃ node, arena.node? id = some node :=
  ⟨_, Array.getElem?_eq_getElem h⟩

/-- The rule that a node stands for is in the arena. -/
theorem WellFormed.exists_rule (h : arena.WellFormed) (hnode : arena.node? id = some (.rule rid)) :
    ∃ rule, arena.rule? rid = some rule :=
  ⟨_, Array.getElem?_eq_getElem (h.rule_lt id.index rid hnode)⟩

/-- The node of a rule is in the arena. -/
theorem WellFormed.node_lt (h : arena.WellFormed) (hrule : arena.rule? rid = some rule) :
    rule.node.index < arena.nodes.size :=
  (Array.getElem?_eq_some_iff.1 (h.rule_node rid rule hrule)).1

end Arena

namespace Builder

/-- **What a step does** that succeeds: the reference that it hands out, and the builder after
it. -/
inductive Step (builder : Builder) : Option NodeId → Builder → Prop where
  | primitive (p : Primitive) : Step builder (some (builder.push (.primitive p)).1)
      (builder.push (.primitive p)).2
  | sequence (children : List NodeId) (howns : ∀ child ∈ children, builder.owns child = true) :
      Step builder (some (builder.push (.sequence children)).1)
        (builder.push (.sequence children)).2
  | declare (name : String) (hnew : builder.names.lookup name = none) :
      Step builder (some (builder.push (.rule builder.rules.size)).1)
        { builder with
          nodes := builder.nodes.push (.rule builder.rules.size)
          rules := builder.rules.push ⟨name, ⟨builder.nodes.size, builder.tag⟩, none⟩
          names := (name, builder.rules.size) :: builder.names }
  | bind (id : RuleId) (pending : PendingRule) (alternatives : List NodeId)
      (hid : builder.rules[id]? = some pending) (hunbound : pending.alternatives = none)
      (hne : alternatives ≠ []) (howns : ∀ a ∈ alternatives, builder.owns a = true) :
      Step builder none
        { builder with
          rules := builder.rules.modify id fun pending =>
            { pending with alternatives := some alternatives } }

variable {builder next : Builder} {added : Option NodeId}

theorem check_eq_ok {id : NodeId} {u : Unit} :
    builder.check id = .ok u ↔ builder.owns id = true := by
  unfold check
  split <;> simp_all

theorem forM_check_eq_ok {ids : List NodeId} {u : Unit} :
    ids.forM builder.check = .ok u ↔ ∀ id ∈ ids, builder.owns id = true := by
  induction ids with
  | nil => simp [List.forM, pure, Except.pure]
  | cons id ids ih =>
    rw [List.forM, bind_eq_ok, List.forall_mem_cons, ← ih]
    simp [check_eq_ok]

theorem bind_step {rule : NodeId} {alternatives : List NodeId}
    (h : builder.bind rule alternatives = .ok next) : Step builder none next := by
  unfold bind at h
  obtain ⟨id, -, h⟩ := bind_eq_ok.1 h
  obtain ⟨_, howns, h⟩ := bind_eq_ok.1 h
  split at h
  · cases h
  · rename_i pending hid
    split_ifs at h with hbound hempty
    · cases h
      refine .bind id pending alternatives hid ?_ ?_ (forM_check_eq_ok.1 howns)
      · simpa using hbound
      · simpa using hempty

theorem apply_step {operation : Operation} (h : builder.apply operation = .ok (added, next)) :
    Step builder added next := by
  cases operation with
  | any => cases h; exact .primitive _
  | eof => cases h; exact .primitive _
  | literal text => cases h; exact .primitive _
  | charRange lo hi =>
    obtain ⟨p, -, h⟩ := bind_eq_ok.1 h
    cases h
    exact .primitive p
  | charSet spec =>
    obtain ⟨p, -, h⟩ := bind_eq_ok.1 h
    cases h
    exact .primitive p
  | sequence children =>
    obtain ⟨step, hstep, h⟩ := bind_eq_ok.1 h
    obtain ⟨_, howns, hstep⟩ := bind_eq_ok.1 hstep
    cases hstep
    cases h
    exact .sequence children (forM_check_eq_ok.1 howns)
  | rule name =>
    obtain ⟨step, hstep, h⟩ := bind_eq_ok.1 h
    unfold declare at hstep
    split_ifs at hstep with hnew
    cases hstep
    cases h
    exact .declare name (Option.not_isSome_iff_eq_none.1 hnew)
  | bind rule alternatives =>
    obtain ⟨last, hbind, h⟩ := bind_eq_ok.1 h
    cases h
    exact bind_step hbind
  | setTarget rule target =>
    obtain ⟨last, hbind, h⟩ := bind_eq_ok.1 h
    cases h
    exact bind_step hbind

/-- **What a builder keeps**: the same as in an arena, with the tag of the builder on all
references. -/
structure WellFormed (builder : Builder) : Prop where
  child : ∀ (place : Nat) children, builder.nodes[place]? = some (Node.sequence children) →
    ∀ child ∈ children, child.owner = builder.tag ∧ child.index < place
  rule : ∀ (place : Nat) id, builder.nodes[place]? = some (Node.rule id) →
    ∃ pending, builder.rules[id]? = some pending ∧ pending.node = ⟨place, builder.tag⟩
  node : ∀ (id : Nat) (pending : PendingRule), builder.rules[id]? = some pending →
    pending.node.owner = builder.tag ∧
      builder.nodes[pending.node.index]? = some (Node.rule id)
  alternatives : ∀ (id : Nat) (pending : PendingRule) alternatives,
    builder.rules[id]? = some pending → pending.alternatives = some alternatives →
      alternatives ≠ [] ∧ ∀ alternative ∈ alternatives, builder.owns alternative = true
  names : ∀ (name : String) (id : Nat), builder.names.lookup name = some id ↔
    ∃ pending, builder.rules[id]? = some pending ∧ pending.name = name

theorem new_wellFormed (tag : Nat) : (new tag).WellFormed := by
  constructor <;> simp [new]

theorem owns_iff {id : NodeId} :
    builder.owns id = true ↔ id.owner = builder.tag ∧ id.index < builder.nodes.size := by
  simp [owns]

/-- A builder with more nodes takes at least the same references. -/
theorem owns_mono {id : NodeId} (h : builder.owns id = true) (htag : next.tag = builder.tag)
    (hsize : builder.nodes.size ≤ next.nodes.size) : next.owns id = true := by
  rw [owns_iff] at h ⊢
  rw [htag]
  exact ⟨h.1, by omega⟩

/-- Adding a node that names no rule keeps the invariant. -/
theorem WellFormed.push (h : builder.WellFormed) {node : Node}
    (hchild : ∀ children, node = .sequence children → ∀ child ∈ children,
      builder.owns child = true)
    (hrule : ∀ id, node ≠ .rule id) : (builder.push node).2.WellFormed := by
  constructor
  · intro place children hplace child hc
    simp only [Builder.push, Array.getElem?_push] at hplace ⊢
    split at hplace
    · rename_i heq
      cases hplace
      rw [heq]
      exact owns_iff.1 (hchild children rfl child hc)
    · exact h.child place children hplace child hc
  · intro place id hplace
    simp only [Builder.push, Array.getElem?_push] at hplace ⊢
    split at hplace
    · cases hplace
      exact absurd rfl (hrule id)
    · exact h.rule place id hplace
  · intro id pending hid
    obtain ⟨htag, hnode⟩ := h.node id pending hid
    refine ⟨htag, ?_⟩
    have hlt := (Array.getElem?_eq_some_iff.1 hnode).1
    -- the node was there before, so it is not the one at the end
    simp only [Builder.push]
    rw [Array.getElem?_push_lt hlt, ← Array.getElem?_eq_getElem hlt]
    exact hnode
  · intro id pending alternatives hid halt
    obtain ⟨hne, howns⟩ := h.alternatives id pending alternatives hid halt
    exact ⟨hne, fun a ha => owns_mono (howns a ha) rfl (by simp [Builder.push])⟩
  · exact h.names

/-- **A step keeps the invariant.** -/
theorem WellFormed.step (h : builder.WellFormed) (hstep : Step builder added next) :
    next.WellFormed := by
  cases hstep with
  | primitive p => exact h.push (by simp) (by simp)
  | sequence children howns =>
    refine h.push ?_ (by simp)
    intro others heq child hc
    cases heq
    exact howns child hc
  | declare name hnew =>
    constructor
    · intro place children hplace child hc
      simp only [Array.getElem?_push] at hplace
      split at hplace
      · cases hplace
      · exact h.child place children hplace child hc
    · intro place id hplace
      simp only [Array.getElem?_push] at hplace
      split at hplace
      · rename_i heq
        cases hplace
        exact ⟨_, Array.getElem?_push_size, by rw [heq]⟩
      · obtain ⟨pending, hid, hnode⟩ := h.rule place id hplace
        have hlt := (Array.getElem?_eq_some_iff.1 hid).1
        refine ⟨pending, ?_, hnode⟩
        simp only
        rw [Array.getElem?_push_lt hlt, ← Array.getElem?_eq_getElem hlt]
        exact hid
    · intro id pending hid
      simp only [Array.getElem?_push] at hid ⊢
      split at hid
      · rename_i heq
        cases hid
        simp [heq]
      · obtain ⟨htag, hnode⟩ := h.node id pending hid
        have hlt := (Array.getElem?_eq_some_iff.1 hnode).1
        exact ⟨htag, by rw [if_neg (by omega)]; exact hnode⟩
    · intro id pending alternatives hid halt
      simp only [Array.getElem?_push] at hid
      split at hid
      · cases hid
        cases halt
      · obtain ⟨hne, howns⟩ := h.alternatives id pending alternatives hid halt
        exact ⟨hne, fun a ha => owns_mono (howns a ha) rfl (by simp)⟩
    · intro other id
      simp only [List.lookup_cons, Array.getElem?_push]
      by_cases hname : other = name
      -- the new name is found at the new rule, and at no other as it was not found before
      · subst hname
        simp only [beq_self_eq_true, Option.some.injEq]
        constructor
        · rintro rfl
          exact ⟨_, if_pos rfl, rfl⟩
        · rintro ⟨pending, hid, hname⟩
          split at hid
          · rename_i heq
            exact heq.symm
          · have := (h.names other id).2 ⟨pending, hid, hname⟩
            rw [hnew] at this
            cases this
      -- any other name is found where it was
      · have hbeq : (other == name) = false := by simpa using hname
        simp only [hbeq, h.names]
        refine exists_congr fun pending => and_congr_left fun hpending => ?_
        split
        · rename_i heq
          constructor
          · intro hid
            have := (Array.getElem?_eq_some_iff.1 hid).1
            omega
          · intro hid
            cases hid
            exact absurd hpending.symm hname
        · exact Iff.rfl
  | bind rule pending alternatives hid hunbound hne howns =>
    -- the rules have the names and nodes that they had
    have hold : ∀ (id : Nat) (new : PendingRule),
        (builder.rules.modify rule fun pending =>
          { pending with alternatives := some alternatives })[id]? = some new →
        ∃ old, builder.rules[id]? = some old ∧ new.name = old.name ∧ new.node = old.node ∧
          (new.alternatives = old.alternatives ∨ new.alternatives = some alternatives) := by
      intro id new hnew
      rw [Array.getElem?_modify] at hnew
      split at hnew
      · obtain ⟨old, hold, rfl⟩ := Option.map_eq_some_iff.1 hnew
        exact ⟨old, hold, rfl, rfl, Or.inr rfl⟩
      · exact ⟨new, hnew, rfl, rfl, Or.inl rfl⟩
    constructor
    · exact h.child
    · intro place id hplace
      obtain ⟨old, hold, hnode⟩ := h.rule place id hplace
      simp only [Array.getElem?_modify, hold]
      split
      · exact ⟨_, rfl, hnode⟩
      · exact ⟨old, rfl, hnode⟩
    · intro id new hnew
      obtain ⟨old, hid, -, hnode, -⟩ := hold id new hnew
      rw [hnode]
      exact h.node id old hid
    · intro id new others hnew halt
      obtain ⟨old, hid, -, -, hsame | hbound⟩ := hold id new hnew
      · exact h.alternatives id old others hid (hsame ▸ halt)
      · rw [halt] at hbound
        cases hbound
        exact ⟨hne, howns⟩
    · intro name id
      rw [h.names]
      constructor
      · rintro ⟨old, hid, hname⟩
        simp only [Array.getElem?_modify, hid]
        split
        · exact ⟨_, rfl, hname⟩
        · exact ⟨old, rfl, hname⟩
      · rintro ⟨new, hid, hname⟩
        obtain ⟨old, hold, hsame, -, -⟩ := hold id new hid
        exact ⟨old, hold, hsame ▸ hname⟩

/-- **Any steps keep the invariant**, whichever of them fail. -/
theorem WellFormed.run (h : builder.WellFormed) (operations : List Operation) :
    (builder.run operations).2.WellFormed := by
  induction operations generalizing builder with
  | nil => exact h
  | cons operation rest ih =>
    rw [Builder.run]
    split
    -- a step that fails leaves the builder as it is
    · exact ih h
    · rename_i hstep
      exact ih (h.step (apply_step hstep))

/-- A step makes a builder take the reference that it hands out, and no other new one. -/
theorem Step.owns_iff {id : NodeId} (hstep : Step builder added next) :
    next.owns id = true ↔ builder.owns id = true ∨ added = some id := by
  have hpush : ∀ node : Node, (builder.push node).2.owns id = true ↔
      builder.owns id = true ∨ some (builder.push node).1 = some id := by
    intro node
    obtain ⟨index, owner⟩ := id
    simp only [Builder.owns_iff, Builder.push, Array.size_push, Option.some.injEq,
      NodeId.mk.injEq]
    omega
  cases hstep with
  | primitive p => exact hpush _
  | sequence children howns => exact hpush _
  | declare name hnew => exact hpush (.rule builder.rules.size)
  | bind rule pending alternatives hid hunbound hne howns => simp [Builder.owns_iff]

/-- **The references handed out are those that are taken.** -/
theorem mem_run_or_owns {id : NodeId} (operations : List Operation) :
    (builder.run operations).2.owns id = true ↔
      builder.owns id = true ∨ id ∈ (builder.run operations).1 := by
  induction operations generalizing builder with
  | nil => simp [run]
  | cons operation rest ih =>
    rw [run]
    split
    · exact ih
    · rename_i added next hstep
      simp only [ih, (apply_step hstep).owns_iff, List.mem_append, Option.mem_toList, or_assoc]

theorem owns_run_new {tag : Nat} {id : NodeId} (operations : List Operation) :
    ((new tag).run operations).2.owns id = true ↔ id ∈ ((new tag).run operations).1 := by
  rw [mem_run_or_owns]
  simp [owns, new]

end Builder

end Packrat
