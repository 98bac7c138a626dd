import Packrat.Proofs.BuilderInvariant
import Packrat.Proofs.Editing
import Packrat.Proofs.Refusals
import Packrat.Workshop

/-!
# Builders do not mix

In a workshop each builder takes the references that it handed out itself, and no others, as long
as tags do not run out. A step that fails leaves the whole workshop as it was.

* `step_of_ok`, `step_of_error`: what a step does to the workshop.
* `Tracks.act`, `Tracks.run`: the builders take what they handed out, after any actions.
* `run_isolated`: **builders are isolated, and steps that fail do nothing.**
-/

namespace Packrat

namespace Workshop

variable {shop : Workshop} {place other : Nat} {builder next : Builder} {slot : Option Builder}

theorem builder?_eq_some :
    shop.builder? place = some builder ↔ shop.builders[place]? = some (some builder) := by
  rw [builder?, Array.getD_eq_getD_getElem?]
  cases shop.builders[place]? <;> simp

theorem place_lt (h : shop.builder? place = some builder) : place < shop.builders.size :=
  (Array.getElem?_eq_some_iff.1 (builder?_eq_some.1 h)).1

@[simp]
theorem size_put : (shop.put place slot).builders.size = shop.builders.size :=
  Array.size_setIfInBounds

theorem builder?_put (h : place < shop.builders.size) :
    (shop.put place slot).builder? other = if other = place then slot else shop.builder? other := by
  simp only [builder?, put, Array.getD_eq_getD_getElem?, Array.getElem?_setIfInBounds]
  by_cases heq : place = other
  · subst heq
    simp [h]
  · rw [if_neg heq, if_neg (Ne.symm heq)]

/-- Putting back what is there changes nothing. -/
theorem put_self (h : shop.builder? place = some builder) : shop.put place (some builder) = shop := by
  have hslot := builder?_eq_some.1 h
  refine congrArg Workshop.mk (Array.ext_getElem? fun i => ?_)
  rw [Array.getElem?_setIfInBounds]
  split_ifs with heq hlt
  · rw [← heq, hslot]
  · rw [← heq, Array.getElem?_eq_none (Nat.le_of_not_lt hlt)]
  · rfl

@[simp]
theorem size_addBuilder : shop.addBuilder.2.builders.size = shop.builders.size + 1 :=
  Array.size_push _

theorem builder?_addBuilder :
    shop.addBuilder.2.builder? place =
      if place = shop.builders.size then some (.new (tagOf place)) else shop.builder? place := by
  simp only [builder?, addBuilder, Array.getD_eq_getD_getElem?, Array.getElem?_push]
  split_ifs with h
  · rw [h]
    rfl
  · rfl

variable {operation : Builder.Operation} {added : Option NodeId} {error : GrammarError}

/-- A step that succeeds changes its own builder. -/
theorem step_of_ok (h : shop.builder? place = some builder)
    (hstep : builder.apply operation = .ok (added, next)) :
    shop.step place operation = some (.ok added, shop.put place (some next)) := by
  rw [step, h, Option.map_some, Builder.Edit.on_perform_of_ok hstep]

/-- **A step that fails changes nothing.** -/
theorem step_of_error (h : shop.builder? place = some builder)
    (hstep : builder.apply operation = .error error) :
    shop.step place operation = some (.error error, shop) := by
  rw [step, h, Option.map_some, Builder.Edit.on_perform_of_error hstep]
  simp only [put_self h]

theorem step_of_none (h : shop.builder? place = none) : shop.step place operation = none := by
  rw [step, h, Option.map_none]

/-- **What a workshop keeps**, where `issued` are the references handed out. A builder takes those
that it handed out; and a reference carries the tag of the place where it was handed out, also
when the builder there was used up. -/
structure Tracks (shop : Workshop) (issued : List (Nat × NodeId)) : Prop where
  wellFormed : ∀ place builder, shop.builder? place = some builder → builder.WellFormed
  tag : ∀ place builder, shop.builder? place = some builder → builder.tag = tagOf place
  owns_iff : ∀ place builder, shop.builder? place = some builder →
    ∀ id, builder.owns id = true ↔ (place, id) ∈ issued
  issued : ∀ place id, (place, id) ∈ issued →
    place < shop.builders.size ∧ id.owner = tagOf place

variable {issued : List (Nat × NodeId)}

theorem tracks_empty : empty.Tracks [] := by
  constructor <;> simp [builder?, empty]

namespace Tracks

/-- What a new builder takes was not handed out before. -/
theorem addBuilder (h : shop.Tracks issued) : shop.addBuilder.2.Tracks issued := by
  constructor
  · intro place builder hbuilder
    rw [builder?_addBuilder] at hbuilder
    split_ifs at hbuilder
    · cases hbuilder
      exact Builder.new_wellFormed _
    · exact h.wellFormed place builder hbuilder
  · intro place builder hbuilder
    rw [builder?_addBuilder] at hbuilder
    split_ifs at hbuilder
    · cases hbuilder
      rfl
    · exact h.tag place builder hbuilder
  · intro place builder hbuilder id
    rw [builder?_addBuilder] at hbuilder
    split_ifs at hbuilder with heq
    · cases hbuilder
      have hnew : (place, id) ∉ issued := by
        intro hmem
        have hlt := (h.issued place id hmem).1
        omega
      simp [Builder.owns, Builder.new, hnew]
    · exact h.owns_iff place builder hbuilder id
  · intro place id hmem
    obtain ⟨hlt, howner⟩ := h.issued place id hmem
    rw [size_addBuilder]
    exact ⟨Nat.lt_succ_of_lt hlt, howner⟩

/-- A builder can be used up. -/
theorem put_none (h : shop.Tracks issued) (hplace : place < shop.builders.size) :
    (shop.put place none).Tracks issued := by
  have hrest : ∀ other builder, (shop.put place none).builder? other = some builder →
      shop.builder? other = some builder := by
    intro other builder hbuilder
    rw [builder?_put hplace] at hbuilder
    split_ifs at hbuilder
    exact hbuilder
  constructor
  · exact fun other builder hbuilder => h.wellFormed other builder (hrest other builder hbuilder)
  · exact fun other builder hbuilder => h.tag other builder (hrest other builder hbuilder)
  · exact fun other builder hbuilder => h.owns_iff other builder (hrest other builder hbuilder)
  · intro other id hmem
    rw [size_put]
    exact h.issued other id hmem

/-- What a step hands out is taken from then on. -/
theorem put_step (h : shop.Tracks issued) (hplace : shop.builder? place = some builder)
    (hstep : Builder.Step builder added next) :
    (shop.put place (some next)).Tracks (issued ++ (added.map (place, ·)).toList) := by
  have hlt := place_lt hplace
  have htag : next.tag = tagOf place := by
    rw [hstep.tag_eq]
    exact h.tag place builder hplace
  constructor
  · intro other left hleft
    rw [builder?_put hlt] at hleft
    split_ifs at hleft
    · cases hleft
      exact (h.wellFormed place builder hplace).step hstep
    · exact h.wellFormed other left hleft
  · intro other left hleft
    rw [builder?_put hlt] at hleft
    split_ifs at hleft with heq
    · cases hleft
      rw [htag, heq]
    · exact h.tag other left hleft
  · intro other left hleft id
    rw [builder?_put hlt] at hleft
    split_ifs at hleft with heq
    · cases hleft
      subst heq
      rw [hstep.owns_iff, h.owns_iff other builder hplace]
      cases added <;> simp [eq_comm]
    · rw [h.owns_iff other left hleft]
      cases added <;> simp [heq]
  · intro other id hmem
    rw [size_put]
    rcases List.mem_append.1 hmem with hbefore | hadded
    · exact h.issued other id hbefore
    · obtain ⟨added, rfl, heq⟩ := Option.map_eq_some_iff.1 (Option.mem_toList.1 hadded)
      cases heq
      -- the reference is one that the builder takes now
      have howns : next.owns id = true := hstep.owns_iff.2 (.inr rfl)
      rw [← htag]
      exact ⟨hlt, (Builder.owns_iff.1 howns).1⟩

/-- **An action keeps all this.** -/
theorem act (h : shop.Tracks issued) (action : Action) :
    (shop.act action).2.Tracks (issued ++ (shop.act action).1.toList) := by
  cases action with
  | addBuilder =>
    rw [Workshop.act, Option.toList_none, List.append_nil]
    exact h.addBuilder
  | build place root config =>
    rw [Workshop.act, build]
    cases hplace : shop.builder? place with
    | none => simpa using h
    | some builder => simpa using h.put_none (place_lt hplace)
  | step place operation =>
    rw [Workshop.act]
    cases hplace : shop.builder? place with
    | none => simpa [step_of_none hplace] using h
    | some builder =>
      cases hstep : builder.apply operation with
      | error error => simpa [step_of_error hplace hstep] using h
      | ok result =>
        obtain ⟨added, next⟩ := result
        simpa [step_of_ok hplace hstep] using h.put_step hplace (Builder.apply_step hstep)

/-- After any actions the builders take what they handed out. -/
theorem run (h : shop.Tracks issued) (actions : List Action) :
    (shop.run actions).2.Tracks (issued ++ (shop.run actions).1) := by
  induction actions generalizing shop issued with
  | nil =>
    rw [Workshop.run, List.append_nil]
    exact h
  | cons action rest ih =>
    rw [Workshop.run, ← List.append_assoc]
    exact ih (h.act action)

end Tracks

/-- As long as tags do not run out, a reference is handed out in one place only. -/
theorem Tracks.place_eq (h : shop.Tracks issued) (hsize : shop.builders.size ≤ UInt32.size)
    {id : NodeId} (hplace : (place, id) ∈ issued) (hother : (other, id) ∈ issued) : other = place := by
  obtain ⟨hlt, howner⟩ := h.issued place id hplace
  obtain ⟨hlt', howner'⟩ := h.issued other id hother
  have hsame : other % UInt32.size = place % UInt32.size := howner'.symm.trans howner
  rwa [Nat.mod_eq_of_lt (by omega), Nat.mod_eq_of_lt (by omega)] at hsame

/-- **Builders are isolated, and steps that fail do nothing.** After any actions with up to 2^32
builders, what another builder handed out, also one that was used up, is not a reference of a
builder that is there. A step guards its references (`Builder.Guards`): it fails for one that is
not an own one, with the first of them unless what is to be bound is an own one that is no rule.
It leaves the other builders as they were, and where it fails all of them; a node that it adds has
the place behind the nodes there were. To make a grammar with a root that is not an own one fails
with that root. -/
theorem run_isolated {actions : List Action} (hrun : empty.run actions = (issued, shop))
    (hsize : shop.builders.size ≤ UInt32.size) (hplace : shop.builder? place = some builder) :
    (∀ other id, (other, id) ∈ issued → other ≠ place → (place, id) ∉ issued) ∧
    (∀ operation, ∃ result next, shop.step place operation = some (result, next) ∧
      builder.Guards (fun id => (place, id) ∈ issued) operation result ∧
      (∀ other, other ≠ place → next.builder? other = shop.builder? other) ∧
      (∀ error, result = .error error → next = shop) ∧
      ∀ added, result = .ok added → operation.binding? = none →
        ∃ id left node, added = some id ∧ id.index = builder.nodes.size ∧
          next.builder? place = some left ∧ left.nodes = builder.nodes.push node) ∧
    ∀ root config, ∃ result next, shop.build place root config = some (result, next) ∧
      (∀ other, other ≠ place → next.builder? other = shop.builder? other) ∧
      ((place, root) ∉ issued → result = .error (.unknownParser root.index)) := by
  have htracks : shop.Tracks issued := by
    have h := tracks_empty.run actions
    rwa [hrun, List.nil_append] at h
  have howns := htracks.owns_iff place builder hplace
  have hput : ∀ slot other, other ≠ place →
      (shop.put place slot).builder? other = shop.builder? other := by
    intro slot other hne
    rw [builder?_put (place_lt hplace), if_neg hne]
  refine ⟨?_, ?_, ?_⟩
  · intro other id hother hne hmem
    exact hne (htracks.place_eq hsize hmem hother)
  · intro operation
    have hguards := (htracks.wellFormed place builder hplace).guards operation
    simp only [howns] at hguards
    cases hstep : builder.apply operation with
    | error error =>
      rw [hstep] at hguards
      refine ⟨_, _, step_of_error hplace hstep, hguards, fun _ _ => rfl, fun _ _ => rfl, ?_⟩
      intro added hresult
      cases hresult
    | ok result =>
      obtain ⟨added, left⟩ := result
      rw [hstep] at hguards
      refine ⟨_, _, step_of_ok hplace hstep, hguards, hput _, ?_, ?_⟩
      · intro error hresult
        cases hresult
      · intro added' hresult hbinding
        cases hresult
        obtain ⟨id, rfl⟩ := Option.isSome_iff_exists.1 (Builder.isSome_of_apply hbinding hstep)
        obtain ⟨rfl, node, hnode⟩ := (Builder.apply_step hstep).eq_push
        refine ⟨_, left, node, rfl, rfl, ?_, hnode⟩
        rw [builder?_put (place_lt hplace), if_pos rfl]
  · intro root config
    refine ⟨builder.build root config, shop.put place none, ?_, hput _, ?_⟩
    · rw [build, hplace, Option.map_some]
    · intro hroot
      rw [← howns] at hroot
      rw [Builder.build, Builder.check_of_not_owns hroot]
      rfl

/-- A rule is not bound to what a builder handed out that was used up since. -/
theorem run_isolated_usedUp :
    ∃ shop, (empty.run [.addBuilder, .addBuilder, .step 0 (.literal "a"), .step 1 (.literal "b"),
        .step 1 (.rule "r"), .build 0 ⟨0, 0⟩ {}]) = ([(0, ⟨0, 0⟩), (1, ⟨0, 1⟩), (1, ⟨1, 1⟩)], shop) ∧
      shop.builders.size = 2 ∧
      shop.step 1 (.bind ⟨1, 1⟩ [⟨0, 1⟩, ⟨0, 0⟩]) = some (.error (.unknownParser 0), shop) := by
  obtain ⟨shop, builder, hrun, hsize, hplace, hrule⟩ : ∃ shop builder,
      empty.run [.addBuilder, .addBuilder, .step 0 (.literal "a"), .step 1 (.literal "b"),
        .step 1 (.rule "r"), .build 0 ⟨0, 0⟩ {}] =
          ([(0, ⟨0, 0⟩), (1, ⟨0, 1⟩), (1, ⟨1, 1⟩)], shop) ∧
      shop.builders.size = 2 ∧ shop.builder? 1 = some builder ∧ builder.IsRule ⟨1, 1⟩ :=
    ⟨_, _, rfl, rfl, rfl, 0, rfl⟩
  have htags : shop.builders.size ≤ UInt32.size := by
    rw [hsize]
    decide
  obtain ⟨hforeign, hsteps, -⟩ := run_isolated hrun htags hplace
  obtain ⟨result, next, hstep, hguards, -, hfailed, -⟩ :=
    hsteps (.bind ⟨1, 1⟩ [⟨0, 1⟩, ⟨0, 0⟩])
  have hresult := hguards.unknownParser [⟨1, 1⟩, ⟨0, 1⟩] ⟨0, 0⟩ [] rfl (by decide)
    (hforeign 0 ⟨0, 0⟩ (by decide) (by decide))
    (fun rule alternatives hbinding _ => by cases hbinding; exact hrule)
  refine ⟨shop, hrun, hsize, ?_⟩
  rw [hstep, hfailed _ hresult, hresult]

end Workshop

end Packrat
