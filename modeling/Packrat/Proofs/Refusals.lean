import Packrat.Proofs.Building

/-!
# What a builder refuses

A step looks at its references in order, before anything else. The first one that the builder did
not hand out is reported; only a reference to bind that is no rule comes before the alternatives.

* `Operation.references`, `Operation.binding?`: the references that a step takes.
* `forM_check_of_foreign`, `exists_first_foreign`: the first reference that is not of the builder.
* `Guards`: what a step reports of its references, and which errors come behind them.
* `WellFormed.guards`: **every step reports so.**
-/

namespace Packrat

namespace Builder

namespace Operation

/-- The references that a step takes, in order. -/
def references : Operation → List NodeId
  | .sequence children => children
  | .bind id alternatives => id :: alternatives
  | .setTarget id target => [id, target]
  | _ => []

/-- What a step binds to what, if it binds anything. -/
def binding? : Operation → Option (NodeId × List NodeId)
  | .bind id alternatives => some (id, alternatives)
  | .setTarget id target => some (id, [target])
  | _ => none

theorem references_of_binding {operation : Operation} {id : NodeId} {alternatives : List NodeId}
    (h : operation.binding? = some (id, alternatives)) :
    operation.references = id :: alternatives := by
  cases operation <;> cases h <;> rfl

/-- Steps that take references make a sequence or bind a rule. -/
theorem references_cases (operation : Operation) :
    (∃ children, operation = .sequence children) ∨
      (∃ id alternatives, operation.binding? = some (id, alternatives)) ∨
      operation.references = [] := by
  cases operation with
  | sequence children => exact .inl ⟨children, rfl⟩
  | bind id alternatives => exact .inr (.inl ⟨id, alternatives, rfl⟩)
  | setTarget id target => exact .inr (.inl ⟨id, [target], rfl⟩)
  | any => exact .inr (.inr rfl)
  | eof => exact .inr (.inr rfl)
  | charRange lo hi => exact .inr (.inr rfl)
  | charSet spec => exact .inr (.inr rfl)
  | literal text => exact .inr (.inr rfl)
  | rule name => exact .inr (.inr rfl)

end Operation

/-- Whether a reference is to a node that stands for a rule. -/
def IsRule (builder : Builder) (id : NodeId) : Prop :=
  ∃ rule, builder.nodes[id.index]? = some (.rule rule)

/-- **What a step reports of its references**, where `own` are those of the builder. -/
structure Guards (builder : Builder) (own : NodeId → Prop) (operation : Operation)
    (result : Except GrammarError (Option NodeId)) : Prop where
  /-- A step that takes a reference which is not an own one fails. -/
  refuses : ∀ id ∈ operation.references, ¬ own id → ∃ error, result = .error error
  /-- It reports the first such reference, unless it is to bind an own one that is no rule. -/
  unknownParser : ∀ before id after, operation.references = before ++ id :: after →
    (∀ i ∈ before, own i) → ¬ own id →
    (∀ rule alternatives, operation.binding? = some (rule, alternatives) → own rule →
      builder.IsRule rule) →
    result = .error (.unknownParser id.index)
  /-- To bind an own reference that is no rule is reported whatever it is bound to. -/
  notARule : ∀ rule alternatives, operation.binding? = some (rule, alternatives) → own rule →
    ¬ builder.IsRule rule → result = .error (.notARule rule.index)
  /-- That a rule is bound already, or has no alternatives, is reported of own references only. -/
  own_of_error : ∀ name,
    result = .error (.ruleAlreadyBound name) ∨ result = .error (.emptyRule name) →
    ∀ id ∈ operation.references, own id
  /-- A rule is bound to own references, unless it is bound already or, else, there are none. -/
  binds : ∀ rule alternatives id pending, operation.binding? = some (rule, alternatives) →
    (∀ i ∈ operation.references, own i) → builder.nodes[rule.index]? = some (.rule id) →
    builder.rules[id]? = some pending →
    result = if pending.alternatives.isSome then .error (.ruleAlreadyBound pending.name)
      else if alternatives.isEmpty then .error (.emptyRule pending.name)
      else .ok none
  /-- A sequence of own references is made. -/
  sequences : ∀ children, operation = .sequence children → (∀ i ∈ children, own i) →
    ∃ id, result = .ok (some id)

variable {builder : Builder} {id : NodeId} {before after alternatives : List NodeId}

theorem check_of_not_owns (h : ¬ builder.owns id = true) :
    builder.check id = .error (.unknownParser id.index) := by
  rw [check, if_neg h]

/-- The first reference that is not of the builder is reported. -/
theorem forM_check_of_foreign (hbefore : ∀ i ∈ before, builder.owns i = true)
    (hid : ¬ builder.owns id = true) :
    (before ++ id :: after).forM builder.check = .error (.unknownParser id.index) := by
  induction before with
  | nil =>
    rw [List.nil_append, List.forM, check_of_not_owns hid]
    rfl
  | cons i before ih =>
    obtain ⟨hi, hrest⟩ := List.forall_mem_cons.1 hbefore
    have hcheck : builder.check i = .ok () := check_eq_ok.2 hi
    rw [List.cons_append, List.forM, hcheck]
    exact ih hrest

/-- Where not all references are own ones there is a first that is not. -/
theorem exists_first_foreign (own : NodeId → Prop) {ids : List NodeId} (hid : id ∈ ids)
    (hown : ¬ own id) :
    ∃ before i after, ids = before ++ i :: after ∧ (∀ j ∈ before, own j) ∧ ¬ own i := by
  induction ids with
  | nil => cases hid
  | cons i ids ih =>
    by_cases hi : own i
    · rcases List.mem_cons.1 hid with rfl | hmem
      · exact absurd hi hown
      · obtain ⟨before, j, after, rfl, hbefore, hj⟩ := ih hmem
        exact ⟨i :: before, j, after, rfl, List.forall_mem_cons.2 ⟨hi, hbefore⟩, hj⟩
    · exact ⟨[], i, ids, rfl, by simp, hi⟩

variable {rule : NodeId}

theorem bind_of_not_owns (h : ¬ builder.owns rule = true) :
    builder.bind rule alternatives = .error (.unknownParser rule.index) := by
  rw [bind, ruleOf, check_of_not_owns h]
  rfl

theorem ruleOf_of_not_isRule (h : builder.owns rule = true) (hrule : ¬ builder.IsRule rule) :
    builder.ruleOf rule = .error (.notARule rule.index) := by
  have hcheck : builder.check rule = .ok () := check_eq_ok.2 h
  simp only [ruleOf, hcheck, Bind.bind, Except.bind]
  split
  · rename_i id hnode
    exact absurd ⟨id, hnode⟩ hrule
  · rfl

theorem bind_of_not_isRule (h : builder.owns rule = true) (hrule : ¬ builder.IsRule rule) :
    builder.bind rule alternatives = .error (.notARule rule.index) := by
  rw [bind, ruleOf_of_not_isRule h hrule]
  rfl

/-- Binding a rule looks at the alternatives first. -/
theorem bind_of_rule {id : RuleId} {pending : PendingRule} (h : builder.owns rule = true)
    (hnode : builder.nodes[rule.index]? = some (.rule id))
    (hid : builder.rules[id]? = some pending) :
    builder.bind rule alternatives = (do
      alternatives.forM builder.check
      if pending.alternatives.isSome then .error (.ruleAlreadyBound pending.name)
      else if alternatives.isEmpty then .error (.emptyRule pending.name)
      else .ok { builder with
        rules := builder.rules.modify id fun pending =>
          { pending with alternatives := some alternatives } }) := by
  have hcheck : builder.check rule = .ok () := check_eq_ok.2 h
  rw [bind, ruleOf, hcheck]
  simp only [Bind.bind, Except.bind, hnode, hid]

/-- A step that binds hands out no reference, and fails where binding does. -/
theorem apply_of_binding {operation : Operation}
    (h : operation.binding? = some (rule, alternatives)) :
    builder.apply operation = builder.bind rule alternatives >>= fun next => .ok (none, next) := by
  cases operation <;> cases h <;> rfl

/-- What a step that binds reports. -/
theorem apply_map_fst_of_binding {operation : Operation}
    (h : operation.binding? = some (rule, alternatives)) :
    (builder.apply operation).map Prod.fst =
      (builder.bind rule alternatives).map fun _ => none := by
  rw [apply_of_binding h]
  cases builder.bind rule alternatives <;> rfl

/-- A step that binds nothing adds a node, in the place behind those there are. -/
theorem Step.eq_push {next : Builder} (hstep : Step builder (some id) next) :
    id = ⟨builder.nodes.size, builder.tag⟩ ∧ ∃ node, next.nodes = builder.nodes.push node := by
  cases hstep with
  | primitive p => exact ⟨rfl, _, rfl⟩
  | sequence children howns => exact ⟨rfl, _, rfl⟩
  | declare name hnew => exact ⟨rfl, _, rfl⟩

theorem isSome_of_apply {operation : Operation} {added : Option NodeId} {next : Builder}
    (hbinding : operation.binding? = none) (h : builder.apply operation = .ok (added, next)) :
    added.isSome = true := by
  cases operation with
  | any => cases h; rfl
  | eof => cases h; rfl
  | literal text => cases h; rfl
  | charRange lo hi => obtain ⟨p, -, h⟩ := bind_eq_ok.1 h; cases h; rfl
  | charSet spec => obtain ⟨p, -, h⟩ := bind_eq_ok.1 h; cases h; rfl
  | sequence children => obtain ⟨step, -, h⟩ := bind_eq_ok.1 h; cases h; rfl
  | rule name => obtain ⟨step, -, h⟩ := bind_eq_ok.1 h; cases h; rfl
  | bind id alternatives => cases hbinding
  | setTarget id target => cases hbinding

/-- The first reference that is not of the builder is what a step reports. -/
theorem WellFormed.apply_of_foreign (h : builder.WellFormed) {operation : Operation}
    (hrefs : operation.references = before ++ id :: after)
    (hbefore : ∀ i ∈ before, builder.owns i = true) (hid : ¬ builder.owns id = true)
    (hrule : ∀ rule alternatives, operation.binding? = some (rule, alternatives) →
      builder.owns rule = true → builder.IsRule rule) :
    (builder.apply operation).map Prod.fst = .error (.unknownParser id.index) := by
  obtain ⟨children, rfl⟩ | ⟨rule, alternatives, hbinding⟩ | hnone := operation.references_cases
  · have hcheck : children.forM builder.check = .error (.unknownParser id.index) := by
      rw [show children = before ++ id :: after from hrefs]
      exact forM_check_of_foreign hbefore hid
    rw [apply, sequence, hcheck]
    rfl
  · rw [apply_map_fst_of_binding hbinding]
    rw [Operation.references_of_binding hbinding] at hrefs
    cases before with
    | nil =>
      -- the reference to bind is the first one
      obtain ⟨rfl, rfl⟩ := List.cons.inj hrefs
      rw [bind_of_not_owns hid]
      rfl
    | cons i before =>
      rw [List.cons_append] at hrefs
      obtain ⟨rfl, rfl⟩ := List.cons.inj hrefs
      obtain ⟨hown, hbefore⟩ := List.forall_mem_cons.1 hbefore
      obtain ⟨rid, hnode⟩ := hrule _ _ hbinding hown
      obtain ⟨pending, hpending, -⟩ := h.rule _ _ hnode
      rw [bind_of_rule hown hnode hpending, forM_check_of_foreign hbefore hid]
      rfl
  · rw [hnone] at hrefs
    cases before <;> cases hrefs

/-- **Every step guards its references.** -/
theorem WellFormed.guards (h : builder.WellFormed) (operation : Operation) :
    Guards builder (fun id => builder.owns id = true) operation
      ((builder.apply operation).map Prod.fst) := by
  have hnotARule : ∀ rule alternatives, operation.binding? = some (rule, alternatives) →
      builder.owns rule = true → ¬ builder.IsRule rule →
      (builder.apply operation).map Prod.fst = .error (.notARule rule.index) := by
    intro rule alternatives hbinding hown hrule
    rw [apply_map_fst_of_binding hbinding, bind_of_not_isRule hown hrule]
    rfl
  -- a reference that is not of the builder is reported, or hidden by one that is no rule
  have hforeign : ∀ id ∈ operation.references, ¬ builder.owns id = true →
      (∃ index, (builder.apply operation).map Prod.fst = .error (.unknownParser index)) ∨
        ∃ index, (builder.apply operation).map Prod.fst = .error (.notARule index) := by
    intro id hid hown
    obtain ⟨before, i, after, hrefs, hbefore, hi⟩ :=
      exists_first_foreign (fun id => builder.owns id = true) hid hown
    by_cases hrule : ∀ rule alternatives, operation.binding? = some (rule, alternatives) →
        builder.owns rule = true → builder.IsRule rule
    · exact .inl ⟨_, h.apply_of_foreign hrefs hbefore hi hrule⟩
    · push Not at hrule
      obtain ⟨rule, alternatives, hbinding, hrown, hrule⟩ := hrule
      exact .inr ⟨_, hnotARule rule alternatives hbinding hrown hrule⟩
  refine ⟨?_, ?_, hnotARule, ?_, ?_, ?_⟩
  · intro id hid hown
    rcases hforeign id hid hown with ⟨index, hresult⟩ | ⟨index, hresult⟩
    · exact ⟨_, hresult⟩
    · exact ⟨_, hresult⟩
  · intro before id after hrefs hbefore hid hrule
    exact h.apply_of_foreign hrefs hbefore hid hrule
  · intro name herror id hid
    by_contra hown
    rcases hforeign id hid hown with ⟨index, hresult⟩ | ⟨index, hresult⟩ <;>
      rw [hresult] at herror <;> simp at herror
  · intro rule alternatives id pending hbinding hown hnode hpending
    rw [Operation.references_of_binding hbinding] at hown
    obtain ⟨hrule, halternatives⟩ := List.forall_mem_cons.1 hown
    have hcheck : alternatives.forM builder.check = .ok () := forM_check_eq_ok.2 halternatives
    rw [apply_map_fst_of_binding hbinding, bind_of_rule hrule hnode hpending, hcheck]
    simp only [Bind.bind, Except.bind]
    split_ifs <;> rfl
  · intro children hoperation hown
    have hcheck : children.forM builder.check = .ok () := forM_check_eq_ok.2 hown
    refine ⟨(builder.push (.sequence children)).1, ?_⟩
    rw [hoperation, apply, sequence, hcheck]
    rfl

end Builder

end Packrat
