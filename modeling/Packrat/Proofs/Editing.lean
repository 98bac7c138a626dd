import Packrat.Builder.Edit
import Packrat.Proofs.Run

/-!
# Steps in place are all or nothing

A step that is taken in place first asks, then changes. So one that fails has changed nothing,
and taken in place a step does what `Builder.apply` says.

* `Edit.Does`: an edit does a step that yields a new builder, and fails only before any change.
* `Edit.Does.ask_bind`: questions can be asked before.
* `Edit.perform_does`: **a step in place does the step.**
-/

namespace Packrat

namespace Builder

namespace Edit

variable {α β : Type} {builder next : Builder}

@[simp]
theorem on_pure (a : α) : (pure a : Edit α).on builder = (.ok a, builder) := rfl

@[simp]
theorem on_get : (get : Edit Builder).on builder = (.ok builder, builder) := rfl

@[simp]
theorem on_modify (f : Builder → Builder) :
    (modify f : Edit PUnit).on builder = (.ok ⟨⟩, f builder) := rfl

@[simp]
theorem on_ask (question : Builder → Except GrammarError α) :
    (ask question).on builder = (question builder, builder) := rfl

/-- What comes behind a failure is not done. -/
theorem on_bind (x : Edit α) (f : α → Edit β) :
    (x >>= f).on builder =
      match x.on builder with
      | (.ok a, next) => (f a).on next
      | (.error e, next) => (.error e, next) := by
  unfold on ExceptT.run StateT.run
  simp only [Bind.bind, ExceptT.bind, ExceptT.mk, StateT.bind]
  cases x builder with
  | mk result next => cases result <;> rfl

theorem on_bind_of_ok {x : Edit α} {f : α → Edit β} {a : α}
    (h : x.on builder = (.ok a, next)) : (x >>= f).on builder = (f a).on next := by
  rw [on_bind, h]

/-- The end of a step that yields a new builder, and otherwise leaves the one it began with. -/
def settled (builder : Builder) : Except GrammarError (α × Builder) →
    Except GrammarError α × Builder
  | .ok (a, next) => (.ok a, next)
  | .error e => (.error e, builder)

@[simp]
theorem settled_ok (a : α) : settled builder (.ok (a, next)) = (.ok a, next) := rfl

@[simp]
theorem settled_error (e : GrammarError) :
    settled builder (.error e : Except GrammarError (α × Builder)) = (.error e, builder) := rfl

/-- An edit does a step: it ends as the step does, with the builder that the step yields, or with
the one it began with if the step fails. -/
def Does (edit : Edit α) (step : Builder → Except GrammarError (α × Builder)) : Prop :=
  ∀ builder, edit.on builder = settled builder (step builder)

namespace Does

variable {edit : Edit α} {step : Builder → Except GrammarError (α × Builder)}

theorem congr {step' : Builder → Except GrammarError (α × Builder)} (h : edit.Does step)
    (heq : ∀ builder, step' builder = step builder) : edit.Does step' := by
  intro builder
  rw [heq, h builder]

theorem map (h : edit.Does step) (f : α → β) :
    (f <$> edit).Does fun builder => step builder >>= fun (a, next) => .ok (f a, next) := by
  intro builder
  rw [map_eq_pure_bind, on_bind, h builder]
  beta_reduce
  cases step builder <;> rfl

/-- What is asked first changes nothing, and if it fails nothing is changed at all. -/
theorem ask_bind {edit : β → Edit α} {step : β → Builder → Except GrammarError (α × Builder)}
    (question : Builder → Except GrammarError β) (h : ∀ b, (edit b).Does (step b)) :
    (ask question >>= edit).Does fun builder => question builder >>= (step · builder) := by
  intro builder
  rw [on_bind, on_ask]
  beta_reduce
  cases question builder with
  | error e => rfl
  | ok b => exact h b builder

end Does

theorem checkAll_eq_ask (ids : List NodeId) :
    checkAll ids = ask fun builder => ids.forM builder.check := by
  unfold checkAll
  induction ids with
  | nil => rfl
  | cons id ids ih =>
    rw [List.forM, ih]
    funext builder
    -- the one question is asked of the builder that the other one left
    show ((ask fun builder => builder.check id) >>= fun _ => ask _).on builder = _
    rw [on_bind, on_ask]
    show _ = (builder.check id >>= fun _ => ids.forM builder.check, builder)
    cases builder.check id <;> rfl

theorem push_does (node : Node) : (push node).Does fun builder => .ok (builder.push node) := by
  intro builder
  rw [push, on_bind_of_ok (on_modify _), on_bind_of_ok on_get, on_pure, Array.size_push,
    Nat.add_sub_cancel]
  rfl

theorem sequence_does (children : List NodeId) :
    (sequence children).Does (·.sequence children) := by
  rw [sequence, checkAll_eq_ask]
  exact .ask_bind _ fun _ => push_does _

theorem declare_does (name : String) : (declare name).Does (·.declare name) := by
  have hadd (u : Unit) : Does (do
      let rule := (← get).rules.size
      let node ← push (.rule rule)
      modify fun builder => { builder with rules := builder.rules.push ⟨name, node, none⟩ }
      modify fun builder => { builder with names := (name, rule) :: builder.names }
      return node : Edit NodeId) fun builder => .ok (⟨builder.nodes.size, builder.tag⟩, { builder with
        nodes := builder.nodes.push (.rule builder.rules.size)
        rules := builder.rules.push ⟨name, ⟨builder.nodes.size, builder.tag⟩, none⟩
        names := (name, builder.rules.size) :: builder.names }) := by
    intro builder
    rw [on_bind_of_ok on_get, on_bind_of_ok (push_does _ _), on_bind_of_ok (on_modify _),
      on_bind_of_ok (on_modify _), on_pure]
    rfl
  refine (Does.ask_bind _ hadd).congr fun builder => ?_
  rw [Builder.declare]
  split_ifs <;> rfl

theorem bind_does (rule : NodeId) (alternatives : List NodeId) :
    (bind rule alternatives).Does fun builder =>
      builder.bind rule alternatives >>= fun next => .ok ((), next) := by
  have hchange (id : RuleId) (u : Unit) : (modify fun builder : Builder =>
      { builder with
        rules := builder.rules.modify id fun pending =>
          { pending with alternatives := some alternatives } } : Edit Unit).Does fun builder =>
      .ok ((), { builder with
        rules := builder.rules.modify id fun pending =>
          { pending with alternatives := some alternatives } }) :=
    fun builder => rfl
  rw [bind, checkAll_eq_ask]
  refine (Does.ask_bind _ fun id => .ask_bind _ fun _ => .ask_bind _ (hchange id)).congr
    fun builder => ?_
  rw [Builder.bind]
  cases builder.ruleOf rule with
  | error e => rfl
  | ok id =>
    cases alternatives.forM builder.check with
    | error e => rfl
    | ok _ =>
      cases hid : builder.rules[id]? with
      | none => simp [hid, Bind.bind, Except.bind]
      | some pending =>
        simp only [hid, Bind.bind, Except.bind]
        split_ifs <;> rfl

/-- Binding hands out no reference. -/
theorem perform_bind_does (rule : NodeId) (alternatives : List NodeId) :
    (perform (.bind rule alternatives)).Does (·.apply (.bind rule alternatives)) := by
  have hmap := (bind_does rule alternatives).map fun _ => (none : Option NodeId)
  rw [← bind_pure_comp] at hmap
  refine hmap.congr fun builder => ?_
  rw [apply]
  cases builder.bind rule alternatives <;> rfl

/-- **A step in place does the step.** If it fails, it has changed nothing. -/
theorem perform_does (operation : Operation) : (perform operation).Does (·.apply operation) := by
  cases operation with
  | any => exact (push_does _).map some
  | eof => exact (push_does _).map some
  | literal text => exact (push_does _).map some
  | charRange lo hi => exact .ask_bind _ fun p => (push_does _).map some
  | charSet spec => exact .ask_bind _ fun p => (push_does _).map some
  | sequence children => exact (sequence_does children).map some
  | rule name => exact (declare_does name).map some
  | bind rule alternatives => exact perform_bind_does rule alternatives
  | setTarget rule target => exact perform_bind_does rule [target]

variable {operation : Operation} {added : Option NodeId} {error : GrammarError}

theorem on_perform_of_ok (h : builder.apply operation = .ok (added, next)) :
    (perform operation).on builder = (.ok added, next) := by
  have hdone := perform_does operation builder
  beta_reduce at hdone
  rw [hdone, h, settled_ok]

theorem on_perform_of_error (h : builder.apply operation = .error error) :
    (perform operation).on builder = (.error error, builder) := by
  have hdone := perform_does operation builder
  beta_reduce at hdone
  rw [hdone, h, settled_error]

end Edit

end Builder

end Packrat
