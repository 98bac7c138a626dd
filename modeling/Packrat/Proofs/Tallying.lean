import Packrat.Evaluation.Tally
import Packrat.Proofs.OutcomeBounds
import Packrat.Proofs.Steadiness

/-!
# What evaluations add up to

Of a tally nothing shows but the sum. So computations with tallies can be made in any order, and in
lexer mode, in which every alternative is tried, alternatives can be tried in any order. What an
evaluation comes to plainly, and what it asks for, is what its tally says.

* `Tallied.bind_comm`: two computations can be made in either order.
* `triedOutcomes_perm`: **so can alternatives in lexer mode.**
* `Furthest`: what outcomes come to, in whatever order.
* `resolve_perm`: a rule is settled alike with its alternatives in any order.
* `evalNode_comesTo`, `evalNode_surveysTo`: plain and surveyed evaluations by their tallies.
-/

namespace Packrat

open Evaluation

namespace Tally

variable {t u v : Tally}

@[simp]
theorem empty_add (t : Tally) : Tally.empty.add t = t := by
  simp [add, empty]

@[simp]
theorem add_empty (t : Tally) : t.add .empty = t := by
  simp [add, empty]

theorem add_comm (t u : Tally) : t.add u = u.add t := by
  simp only [add, Nat.max_comm t.reach, Multiset.add_comm t.direct, Multiset.add_comm t.all]

theorem add_assoc (t u v : Tally) : (t.add u).add v = t.add (u.add v) := by
  simp only [add, Nat.max_assoc, Multiset.add_assoc]

end Tally

namespace Tallied

variable {α β γ : Type} {x : Tallied α} {f g : α → Tallied β} {a : α} {t : Tally}

@[simp]
theorem gaveUp_bind (f : α → Tallied β) : (gaveUp >>= f) = gaveUp := rfl

theorem done_bind (a : α) (t : Tally) (f : α → Tallied β) :
    (done a t >>= f) =
      match f a with
      | gaveUp => gaveUp
      | done b u => done b (t.add u) :=
  rfl

theorem bind_eq_done {b : β} :
    (x >>= f) = done b t ↔
      ∃ a first second, x = done a first ∧ f a = done b second ∧ t = first.add second := by
  cases x with
  | gaveUp => simp
  | done a first =>
    rw [done_bind]
    constructor
    · intro h
      split at h
      · cases h
      · rename_i c second hf
        cases h
        exact ⟨a, first, second, rfl, hf, rfl⟩
    · rintro ⟨a, first, second, h, hf, rfl⟩
      cases h
      rw [hf]

/-- What follows a computation matters only where it is reached. -/
theorem bind_congr_of (h : ∀ a t, x = done a t → f a = g a) : (x >>= f) = (x >>= g) := by
  cases x with
  | gaveUp => rfl
  | done a t => rw [done_bind, done_bind, h a t rfl]

theorem bind_pure_id (x : Tallied α) : x >>= pure = x := by
  cases x with
  | gaveUp => rfl
  | done a t => exact congrArg (done a) (Tally.add_empty t)

theorem pure_bind_eq (a : α) (f : α → Tallied β) : (pure a >>= f) = f a := by
  show (done a .empty >>= f) = f a
  rw [done_bind]
  simp only [Tally.empty_add]
  cases f a <;> rfl

theorem bind_bind (x : Tallied α) (f : α → Tallied β) (g : β → Tallied γ) :
    (x >>= f >>= g) = x >>= fun a => f a >>= g := by
  cases x with
  | gaveUp => rfl
  | done a t =>
    rw [done_bind, done_bind]
    cases f a with
    | gaveUp => rfl
    | done b u =>
      simp only [done_bind]
      cases g b with
      | gaveUp => rfl
      | done c v => simp only [Tally.add_assoc]

instance : LawfulMonad Tallied := LawfulMonad.mk' Tallied bind_pure_id pure_bind_eq bind_bind

@[simp]
theorem map_done (g : α → β) (a : α) (t : Tally) : g <$> done a t = done (g a) t :=
  congrArg (done (g a)) (Tally.add_empty t)

/-- **Two computations can be made in either order.** -/
theorem bind_comm (x : Tallied α) (y : Tallied β) (f : α → β → Tallied γ) :
    (x >>= fun a => y >>= fun b => f a b) = y >>= fun b => x >>= fun a => f a b := by
  cases x with
  | gaveUp => cases y <;> rfl
  | done a t =>
    cases y with
    | gaveUp => rfl
    | done b u =>
      simp only [done_bind]
      cases f a b with
      | gaveUp => rfl
      | done c v => simp only [← Tally.add_assoc, Tally.add_comm t u]

end Tallied

section Alternatives

variable {α β : Type} {attempt : α → Tallied Outcome} {alternatives alternatives' : List α}

/-- In lexer mode every alternative is tried. -/
theorem triedOutcomes_lexer_cons (attempt : α → Tallied Outcome) (alternative : α)
    (rest : List α) :
    triedOutcomes .lexer attempt (alternative :: rest) =
      attempt alternative >>= fun outcome =>
        triedOutcomes .lexer attempt rest >>= fun outcomes => pure (outcome :: outcomes) := by
  rw [triedOutcomes]
  congr 1
  funext outcome
  cases outcome <;> rfl

theorem forall_of_triedOutcomes_eq_done {P : Outcome → Prop} {outcomes : List Outcome} {t : Tally}
    (hP : ∀ alternative ∈ alternatives, ∀ outcome t,
      attempt alternative = .done outcome t → P outcome)
    (h : triedOutcomes .lexer attempt alternatives = .done outcomes t) :
    ∀ outcome ∈ outcomes, P outcome := by
  induction alternatives generalizing outcomes t with
  | nil =>
    cases h
    simp
  | cons alternative rest ih =>
    rw [triedOutcomes_lexer_cons] at h
    obtain ⟨outcome, first, second, hone, h, -⟩ := Tallied.bind_eq_done.1 h
    obtain ⟨others, third, fourth, hrest, h, -⟩ := Tallied.bind_eq_done.1 h
    cases h
    exact List.forall_mem_cons.2 ⟨hP alternative List.mem_cons_self outcome first hone,
      ih (fun a ha => hP a (List.mem_cons_of_mem _ ha)) hrest⟩

/-- **In lexer mode alternatives can be tried in any order**, when what is made of their outcomes
does not depend on it. -/
theorem triedOutcomes_perm (hperm : alternatives.Perm alternatives') {P : Outcome → Prop}
    (hP : ∀ alternative ∈ alternatives, ∀ outcome t,
      attempt alternative = .done outcome t → P outcome)
    {F : List Outcome → Tallied β}
    (hF : ∀ outcomes outcomes', outcomes.Perm outcomes' → (∀ outcome ∈ outcomes, P outcome) →
      F outcomes = F outcomes') :
    triedOutcomes .lexer attempt alternatives >>= F =
      triedOutcomes .lexer attempt alternatives' >>= F := by
  induction hperm generalizing F with
  | nil => rfl
  | cons alternative hperm ih =>
    simp only [triedOutcomes_lexer_cons, bind_assoc, pure_bind]
    refine Tallied.bind_congr_of fun outcome t houtcome => ?_
    have hone := hP alternative List.mem_cons_self outcome t houtcome
    refine ih (fun a ha => hP a (List.mem_cons_of_mem _ ha)) fun outcomes outcomes' h hall => ?_
    exact hF _ _ (h.cons outcome) (List.forall_mem_cons.2 ⟨hone, hall⟩)
  | swap first second rest =>
    simp only [triedOutcomes_lexer_cons, bind_assoc, pure_bind]
    rw [Tallied.bind_comm]
    refine Tallied.bind_congr_of fun outcome t houtcome => ?_
    refine Tallied.bind_congr_of fun outcome' t' houtcome' => ?_
    refine Tallied.bind_congr_of fun outcomes u hrest => ?_
    have hothers := forall_of_triedOutcomes_eq_done
      (fun a ha => hP a (List.mem_cons_of_mem _ (List.mem_cons_of_mem _ ha))) hrest
    have hfirst := hP first (List.mem_cons_of_mem _ List.mem_cons_self) outcome t houtcome
    have hsecond := hP second List.mem_cons_self outcome' t' houtcome'
    refine hF _ _ (.swap outcome outcome' outcomes) ?_
    exact List.forall_mem_cons.2 ⟨hsecond, List.forall_mem_cons.2 ⟨hfirst, hothers⟩⟩
  | trans h h' ih ih' =>
    rw [ih hP hF]
    exact ih' (fun a ha => hP a (h.mem_iff.2 ha)) hF

end Alternatives

section Lexing

variable {outcomes outcomes' : List Outcome} {pos : Nat}

/-- What outcomes at an offset come to, in whatever order: a match that ends no earlier than any
other, or else the deepest failure, if it is behind the offset. -/
inductive Furthest (pos : Nat) (outcomes : List Outcome) : Outcome → Prop where
  | matched (stop : Nat) (hmem : Outcome.ofBounds pos stop ∈ outcomes)
      (hlongest : ∀ span, Outcome.matched span ∈ outcomes → span.stop ≤ stop) :
      Furthest pos outcomes (.ofBounds pos stop)
  | noMatch (index : Nat) (hfrom : index = pos ∨ Outcome.noMatchAt index ∈ outcomes)
      (hle : pos ≤ index)
      (hfailed : ∀ outcome ∈ outcomes, ∃ other : NoMatch, outcome = .noMatch other ∧
        other.index ≤ index) :
      Furthest pos outcomes (.noMatchAt index)

variable {outcome outcome' : Outcome}

theorem Furthest.perm (h : Furthest pos outcomes outcome) (hperm : outcomes.Perm outcomes') :
    Furthest pos outcomes' outcome := by
  cases h with
  | matched stop hmem hlongest =>
    exact .matched stop (hperm.mem_iff.1 hmem) fun span hspan =>
      hlongest span (hperm.mem_iff.2 hspan)
  | noMatch index hfrom hle hfailed =>
    have hfrom' : index = pos ∨ Outcome.noMatchAt index ∈ outcomes' :=
      hfrom.imp_right hperm.mem_iff.1
    exact .noMatch index hfrom' hle fun other hother => hfailed other (hperm.mem_iff.2 hother)

/-- A failure among others is no deeper than the deepest. -/
theorem Furthest.index_le {index index' : Nat} (hfrom : index = pos ∨
    Outcome.noMatchAt index ∈ outcomes) (hle : pos ≤ index')
    (hfailed : ∀ outcome ∈ outcomes, ∃ other : NoMatch, outcome = .noMatch other ∧
      other.index ≤ index') : index ≤ index' := by
  rcases hfrom with rfl | hmem
  · exact hle
  · obtain ⟨other, hother, hindex⟩ := hfailed _ hmem
    cases hother
    exact hindex

/-- Outcomes come to one of them only. -/
theorem Furthest.unique (h : Furthest pos outcomes outcome)
    (h' : Furthest pos outcomes outcome') : outcome = outcome' := by
  cases h with
  | matched stop hmem hlongest =>
    cases h' with
    | matched stop' hmem' hlongest' =>
      have hle : stop ≤ stop' := hlongest' _ hmem
      have hge : stop' ≤ stop := hlongest _ hmem'
      rw [Nat.le_antisymm hle hge]
    | noMatch index hfrom hle hfailed =>
      obtain ⟨other, hother, -⟩ := hfailed _ hmem
      cases hother
  | noMatch index hfrom hle hfailed =>
    cases h' with
    | matched stop hmem hlongest =>
      obtain ⟨other, hother, -⟩ := hfailed _ hmem
      cases hother
    | noMatch index' hfrom' hle' hfailed' =>
      have hdeep : index ≤ index' := Furthest.index_le hfrom hle' hfailed'
      have hdeep' : index' ≤ index := Furthest.index_le hfrom' hle hfailed
      rw [Nat.le_antisymm hdeep hdeep']

/-- What a choice comes to where all matches begin at one offset. -/
theorem furthest_ofOutcomes (hordered : ∀ outcome ∈ outcomes, outcome.Ordered pos pos) :
    Furthest pos outcomes (Resolution.ofOutcomes 0 none ⟨pos⟩ outcomes).toOutcome := by
  cases h : Resolution.ofOutcomes 0 none ⟨pos⟩ outcomes with
  | chosen choice =>
    obtain ⟨hchosen, -, hlongest⟩ := ofOutcomes_eq_chosen h
    rcases hchosen with hbest | ⟨i, hi, -⟩
    · cases hbest
    · obtain ⟨alternative, start, stop⟩ := choice
      have hmem := List.mem_of_getElem? hi
      obtain rfl : start = pos := (hordered _ hmem).1
      exact .matched stop hmem hlongest
  | noMatch failure =>
    obtain ⟨-, hfrom, hle, hfailed⟩ := ofOutcomes_eq_noMatch h
    refine .noMatch failure.index (hfrom.imp_left fun hfailure => ?_) hle hfailed
    rw [hfailure]

/-- **Where all matches begin at one offset it does not show in what order alternatives stand**,
apart from which of them is chosen. -/
theorem toOutcome_perm (hperm : outcomes.Perm outcomes')
    (hordered : ∀ outcome ∈ outcomes, outcome.Ordered pos pos) :
    (Resolution.ofOutcomes 0 none ⟨pos⟩ outcomes).toOutcome =
      (Resolution.ofOutcomes 0 none ⟨pos⟩ outcomes').toOutcome := by
  have hordered' : ∀ outcome ∈ outcomes', outcome.Ordered pos pos :=
    fun outcome hmem => hordered outcome (hperm.mem_iff.2 hmem)
  have hfurthest := (furthest_ofOutcomes hordered).perm hperm
  exact hfurthest.unique (furthest_ofOutcomes hordered')

/-- **A rule is settled alike with its alternatives in any order.** -/
theorem resolve_perm {α : Type} {attempt : α → Tallied Outcome} {alternatives alternatives' : List α}
    (hperm : alternatives.Perm alternatives')
    (hordered : ∀ alternative ∈ alternatives, ∀ outcome t,
      attempt alternative = .done outcome t → outcome.Ordered pos pos) :
    Resolution.toOutcome <$> resolve .lexer alternatives pos attempt =
      Resolution.toOutcome <$> resolve .lexer alternatives' pos attempt := by
  rw [resolve_eq, resolve_eq, ← comp_map, ← comp_map, map_eq_pure_bind, map_eq_pure_bind]
  refine triedOutcomes_perm hperm hordered fun outcomes outcomes' h hall => ?_
  exact congrArg pure (toOutcome_perm h hall)

end Lexing

/-- A plain computation comes to what the tally says, or nowhere. -/
def comesTo : Simulation Attempt Tallied where
  Rel x y :=
    match y with
    | .gaveUp => ∀ f, ∃ e, x.run f = .error e
    | .done a t => x.Comes a t.reach
  pure a := Attempt.Comes.pure a
  bind {α β x y f g} hxy hfg := by
    cases y with
    | gaveUp =>
      intro s
      obtain ⟨e, herror⟩ := hxy s
      exact ⟨e, run_bind_eq_error.2 (.inl herror)⟩
    | done a t =>
      have hg := hfg a
      rw [Tallied.done_bind]
      cases hnext : g a with
      | gaveUp =>
        rw [hnext] at hg
        intro s
        obtain ⟨e, herror⟩ := hg (max s t.reach)
        exact ⟨e, run_bind_eq_error.2 (.inr ⟨a, _, hxy s, herror⟩)⟩
      | done b u =>
        rw [hnext] at hg
        exact Attempt.Comes.bind hxy hg
  fault e := fun _ => ⟨e, rfl⟩
  tried _ _ := Attempt.Comes.pure ()
  reach index := fun _ => rfl

/-- A surveyed computation asks for what the tally says. -/
def surveysTo : Simulation Surveyed Tallied where
  Rel x y :=
    match y with
    | .gaveUp => ∃ e, x = .error e
    | .done a t => ∃ survey, x = .ok (a, survey) ∧ t.direct = survey.direct ∧ t.all = survey.all
  pure a := ⟨.empty, rfl, rfl, rfl⟩
  bind {α β x y f g} hxy hfg := by
    cases y with
    | gaveUp =>
      obtain ⟨e, rfl⟩ := hxy
      exact ⟨e, rfl⟩
    | done a t =>
      obtain ⟨first, rfl, hdirect, hall⟩ := hxy
      have hg := hfg a
      rw [Tallied.done_bind]
      cases hnext : g a with
      | gaveUp =>
        rw [hnext] at hg
        obtain ⟨e, herror⟩ := hg
        refine ⟨e, ?_⟩
        show Surveyed.bind _ _ = _
        simp only [Surveyed.bind, herror]
        rfl
      | done b u =>
        rw [hnext] at hg
        obtain ⟨second, hsecond, hdirect', hall'⟩ := hg
        refine ⟨first.append second, surveyed_bind_eq_ok.2 ⟨a, first, second, rfl, hsecond, rfl⟩,
          ?_, ?_⟩
        · simp [Tally.add, Survey.append, hdirect, hdirect']
        · simp [Tally.add, Survey.append, hall, hall']
  fault e := ⟨e, rfl⟩
  tried _ _ := ⟨.empty, rfl, rfl, rfl⟩
  reach _ := ⟨.empty, rfl, rfl, rfl⟩

/-- Surveys that list the same keys, in whatever order. -/
structure Survey.Perm (survey survey' : Survey) : Prop where
  direct : survey.direct.Perm survey'.direct
  all : survey.all.Perm survey'.all

section Tallies

variable {α β : Type} {g : α → β} {y y' : Tallied α} {a : α}

/-- What is made of computations is the same only where they add up to the same. -/
theorem Tallied.map_eq_map (h : g <$> y = g <$> y') :
    y = .gaveUp ∧ y' = .gaveUp ∨ ∃ a a' t, y = .done a t ∧ y' = .done a' t ∧ g a' = g a := by
  cases y with
  | gaveUp =>
    cases y' with
    | gaveUp => exact .inl ⟨rfl, rfl⟩
    | done a' t' => cases h
  | done a t =>
    cases y' with
    | gaveUp => cases h
    | done a' t' =>
      simp only [map_done, done.injEq] at h
      obtain ⟨hvalue, rfl⟩ := h
      exact .inr ⟨a, a', t, rfl, rfl, hvalue.symm⟩

/-- Plain computations come to the same where their tallies do. -/
theorem run_of_comesTo {x x' : Attempt α} {f f' : Nat} (hx : comesTo.Rel x y)
    (hx' : comesTo.Rel x' y') (h : g <$> y = g <$> y') (hrun : x.run f = .ok (a, f')) :
    ∃ a', x'.run f = .ok (a', f') ∧ g a' = g a := by
  rcases Tallied.map_eq_map h with ⟨rfl, -⟩ | ⟨b, b', t, rfl, rfl, hvalue⟩
  · obtain ⟨e, herror⟩ := hx f
    rw [hrun] at herror
    cases herror
  · have hcomes : x.Comes b t.reach := hx
    rw [hcomes f] at hrun
    cases hrun
    exact ⟨b', hx' f, hvalue⟩

/-- Surveyed computations ask for the same where their tallies do. -/
theorem perm_of_surveysTo {x x' : Surveyed α} {survey : Survey} (hx : surveysTo.Rel x y)
    (hx' : surveysTo.Rel x' y') (h : g <$> y = g <$> y') (hok : x = .ok (a, survey)) :
    ∃ a' survey', x' = .ok (a', survey') ∧ g a' = g a ∧ survey.Perm survey' := by
  rcases Tallied.map_eq_map h with ⟨rfl, -⟩ | ⟨b, b', t, rfl, rfl, hvalue⟩
  · obtain ⟨e, herror⟩ := hx
    rw [hok] at herror
    cases herror
  · obtain ⟨first, hfirst, hdirect, hall⟩ := hx
    rw [hok] at hfirst
    cases hfirst
    obtain ⟨second, hsecond, hdirect', hall'⟩ := hx'
    exact ⟨b', second, hsecond, hvalue, Multiset.coe_eq_coe.1 (hdirect.symm.trans hdirect'),
      Multiset.coe_eq_coe.1 (hall.symm.trans hall')⟩

end Tallies

variable {arena : Arena} {input : Input} {mode : Mode}

/-- An evaluation of a node with its tally. -/
abbrev talliedNode (arena : Arena) (input : Input) (mode : Mode) (depth : Nat) (id : NodeId)
    (pos : Nat) : Tallied Outcome :=
  evalNode arena input mode depth id pos

/-- The choice between the alternatives of a rule with its tally. -/
abbrev talliedBody (arena : Arena) (input : Input) (mode : Mode) (depth : Nat) (rule : Rule)
    (pos : Nat) : Tallied Resolution :=
  resolve mode rule.alternatives pos (talliedNode arena input mode depth · pos)

theorem comesTo_settle {key : Memo.Key} {body : Attempt Resolution} {body' : Tallied Resolution}
    (h : comesTo.Rel body body') :
    comesTo.Rel (Attempt.settle key.offset body) (Tallied.settle key body') := by
  cases body' with
  | gaveUp =>
    intro s
    obtain ⟨e, herror⟩ := h key.offset
    exact ⟨e, settle_run_eq_error.2 herror⟩
  | done resolution t => exact Attempt.Comes.settle h key.offset

theorem surveysTo_settle {key : Memo.Key} {body : Surveyed Resolution}
    {body' : Tallied Resolution} (h : surveysTo.Rel body body') :
    surveysTo.Rel (Surveyed.settle key body) (Tallied.settle key body') := by
  cases body' with
  | gaveUp =>
    obtain ⟨e, rfl⟩ := h
    exact ⟨e, rfl⟩
  | done resolution t =>
    obtain ⟨survey, rfl, -, hall⟩ := h
    refine ⟨.asking key survey, rfl, rfl, ?_⟩
    simp [Tally.asking, Survey.asking, hall]

theorem settles_comesTo {eval : NodeId → Nat → Attempt Outcome}
    {eval' : NodeId → Nat → Tallied Outcome} : comesTo.Settles arena mode eval eval' :=
  fun _ _ _ _ hbody => comesTo_settle hbody

theorem settles_surveysTo {eval : NodeId → Nat → Surveyed Outcome}
    {eval' : NodeId → Nat → Tallied Outcome} : surveysTo.Settles arena mode eval eval' :=
  fun _ _ _ _ hbody => surveysTo_settle hbody

/-- **A plain evaluation comes to what its tally says.** -/
theorem evalNode_comesTo (depth : Nat) (id : NodeId) (pos : Nat) :
    comesTo.Rel (plainNode arena input mode depth id pos)
      (talliedNode arena input mode depth id pos) := by
  induction depth generalizing id pos with
  | zero => exact comesTo.fault _
  | succ depth ih => exact comesTo.evalNode_succ settles_comesTo ih id pos

/-- Matches with a tally begin at the offset and do not end before it. -/
theorem talliedNode_ordered {depth pos : Nat} {id : NodeId} {outcome : Outcome} {t : Tally}
    (h : talliedNode arena input mode depth id pos = .done outcome t) :
    outcome.Ordered pos pos := by
  have hcomes : comesTo.Rel (plainNode arena input mode depth id pos)
      (talliedNode arena input mode depth id pos) := evalNode_comesTo depth id pos
  rw [h] at hcomes
  exact evalNode_ordered (hcomes 0)

/-- **A survey lists what the tally says.** -/
theorem evalNode_surveysTo (depth : Nat) (id : NodeId) (pos : Nat) :
    surveysTo.Rel (surveyedNode arena input mode depth id pos)
      (talliedNode arena input mode depth id pos) := by
  induction depth generalizing id pos with
  | zero => exact surveysTo.fault _
  | succ depth ih => exact surveysTo.evalNode_succ settles_surveysTo ih id pos

theorem surveyedBody_surveysTo (depth : Nat) (rule : Rule) (pos : Nat) :
    surveysTo.Rel (surveyedBody arena input mode depth rule pos)
      (talliedBody arena input mode depth rule pos) :=
  surveysTo.resolve mode pos fun alternative _ => evalNode_surveysTo depth alternative pos

end Packrat
