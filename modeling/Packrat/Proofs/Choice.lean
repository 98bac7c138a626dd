import Packrat.Choice
import Packrat.Proofs.Run

/-!
# Choosing from outcomes

Both policies come to the same: some of the alternatives are tried, and the choice is made from
their outcomes alone.

* `triedOutcomes`: the outcomes of the alternatives that a policy tries.
* `Resolution.ofOutcomes`: the choice made from outcomes.
* `resolve_eq`: **a policy tries alternatives and then chooses from their outcomes.**
* `ofOutcomes_eq_chosen`, `ofOutcomes_eq_noMatch`: what is known of a choice, and of a failure.
* `stop_lt_of_ofOutcomes_eq_chosen`: **the first of the longest is chosen.**
-/

namespace Packrat

section Choosing

variable {m : Type → Type} [Monad m] {α : Type}

/-- The outcomes of the alternatives that the policy of a mode tries, in order. In parser mode
nothing is tried behind the first match. -/
def triedOutcomes (mode : Mode) (attempt : α → m Outcome) : List α → m (List Outcome)
  | [] => pure []
  | alternative :: rest => do
    match ← attempt alternative with
    | .matched span =>
      match mode with
      | .parser => pure [.matched span]
      | .lexer =>
        let outcomes ← triedOutcomes .lexer attempt rest
        pure (.matched span :: outcomes)
    | .noMatch failure =>
      let outcomes ← triedOutcomes mode attempt rest
      pure (.noMatch failure :: outcomes)

/-- The choice made from the outcomes of alternatives that are numbered from `place` on, when
`best?` is the best choice and `deepest` the deepest failure so far. -/
def Resolution.ofOutcomes (place : Nat) (best? : Option Choice) (deepest : NoMatch) :
    List Outcome → Resolution
  | [] =>
    match best? with
    | some best => .chosen best
    | none => .noMatch deepest
  | .matched span :: rest =>
    ofOutcomes (place + 1) (if Choice.outreachedBy best? span then some ⟨place, span⟩ else best?)
      deepest rest
  | .noMatch failure :: rest => ofOutcomes (place + 1) best? (deepest.deeper failure) rest

theorem longestMatchFrom_eq [LawfulMonad m] (attempt : α → m Outcome) (place : Nat)
    (best? : Option Choice) (deepest : NoMatch) (alternatives : List α) :
    longestMatchFrom attempt place best? deepest alternatives =
      Resolution.ofOutcomes place best? deepest <$> triedOutcomes .lexer attempt alternatives := by
  induction alternatives generalizing place best? deepest with
  | nil =>
    unfold longestMatchFrom triedOutcomes
    rw [map_pure]
    rfl
  | cons alternative rest ih =>
    simp only [longestMatchFrom, triedOutcomes, map_bind]
    congr 1
    funext outcome
    cases outcome with
    | matched span => simp only [ih, map_eq_pure_bind, bind_assoc, pure_bind, Resolution.ofOutcomes]
    | noMatch failure =>
      simp only [ih, map_eq_pure_bind, bind_assoc, pure_bind, Resolution.ofOutcomes]

theorem orderedChoiceFrom_eq [LawfulMonad m] (attempt : α → m Outcome) (place : Nat)
    (deepest : NoMatch) (alternatives : List α) :
    orderedChoiceFrom attempt place deepest alternatives =
      Resolution.ofOutcomes place none deepest <$> triedOutcomes .parser attempt alternatives := by
  induction alternatives generalizing place deepest with
  | nil =>
    rw [orderedChoiceFrom, triedOutcomes, map_pure]
    rfl
  | cons alternative rest ih =>
    simp only [orderedChoiceFrom, triedOutcomes, map_bind]
    congr 1
    funext outcome
    cases outcome with
    | matched span => simp [Resolution.ofOutcomes, Choice.outreachedBy]
    | noMatch failure =>
      simp only [ih, map_eq_pure_bind, bind_assoc, pure_bind, Resolution.ofOutcomes]

/-- **A policy tries alternatives and then chooses from their outcomes.** -/
theorem resolve_eq [LawfulMonad m] (mode : Mode) (alternatives : List α) (pos : Nat)
    (attempt : α → m Outcome) :
    resolve mode alternatives pos attempt =
      Resolution.ofOutcomes 0 none ⟨pos⟩ <$> triedOutcomes mode attempt alternatives := by
  cases mode with
  | parser => exact orderedChoiceFrom_eq attempt 0 ⟨pos⟩ alternatives
  | lexer => exact longestMatchFrom_eq attempt 0 none ⟨pos⟩ alternatives

end Choosing

section Outcomes

variable {place : Nat} {best? : Option Choice} {deepest failure : NoMatch} {choice : Choice}
  {outcomes : List Outcome}

/-- The choice made is the best one so far or that of an outcome, and it reaches as far as any. -/
theorem ofOutcomes_eq_chosen
    (h : Resolution.ofOutcomes place best? deepest outcomes = .chosen choice) :
    (best? = some choice ∨
        ∃ i, outcomes[i]? = some (.matched choice.span) ∧ choice.alternative = place + i) ∧
      (∀ best, best? = some best → best.span.stop ≤ choice.span.stop) ∧
      ∀ span, Outcome.matched span ∈ outcomes → span.stop ≤ choice.span.stop := by
  induction outcomes generalizing place best? deepest with
  | nil =>
    cases best? with
    | none => cases h
    | some best => cases h; simp
  | cons outcome rest ih =>
    cases outcome with
    | matched span =>
      obtain ⟨hfrom, hbest, hrest⟩ := ih h
      -- a span that does not replace the best one ends no later than it
      have hspan : span.stop ≤ choice.span.stop ∧
          ∀ best, best? = some best → best.span.stop ≤ choice.span.stop := by
        split_ifs at hbest with hout
        · have hle := hbest _ rfl
          refine ⟨hle, ?_⟩
          rintro best rfl
          simp only [Choice.outreachedBy, decide_eq_true_eq] at hout
          have : span.stop ≤ choice.span.stop := hle
          omega
        · refine ⟨?_, hbest⟩
          cases best? with
          | none => exact absurd rfl hout
          | some best =>
            have := hbest best rfl
            simp only [Choice.outreachedBy, decide_eq_true_eq] at hout
            omega
      refine ⟨?_, hspan.2, ?_⟩
      · rcases hfrom with hfrom | ⟨i, hi, hplace⟩
        · split_ifs at hfrom with hout
          · cases hfrom
            exact Or.inr ⟨0, rfl, rfl⟩
          · exact Or.inl hfrom
        · exact Or.inr ⟨i + 1, hi, by omega⟩
      · intro other hother
        rcases List.mem_cons.1 hother with hother | hother
        · cases hother
          exact hspan.1
        · exact hrest other hother
    | noMatch failure =>
      obtain ⟨hfrom, hbest, hrest⟩ := ih h
      refine ⟨?_, hbest, ?_⟩
      · rcases hfrom with hfrom | ⟨i, hi, hplace⟩
        · exact Or.inl hfrom
        · exact Or.inr ⟨i + 1, hi, by omega⟩
      · intro other hother
        rcases List.mem_cons.1 hother with hother | hother
        · cases hother
        · exact hrest other hother

/-- **The first of the longest is chosen**: what is given up for the choice is shorter, and so is
every match ahead of it. -/
theorem stop_lt_of_ofOutcomes_eq_chosen
    (h : Resolution.ofOutcomes place best? deepest outcomes = .chosen choice)
    (hbehind : ∀ best, best? = some best → best.alternative < place) :
    (∀ best, best? = some best → best = choice ∨ best.span.stop < choice.span.stop) ∧
      ∀ i span, outcomes[i]? = some (.matched span) → place + i < choice.alternative →
        span.stop < choice.span.stop := by
  induction outcomes generalizing place best? deepest with
  | nil =>
    cases best? with
    | none => cases h
    | some best => cases h; simp
  | cons outcome rest ih =>
    cases outcome with
    | noMatch failure =>
      obtain ⟨hbest, hahead⟩ := ih h fun best heq => Nat.lt_succ_of_lt (hbehind best heq)
      refine ⟨hbest, fun i other hi hlt => ?_⟩
      cases i with
      | zero => cases hi
      | succ i => exact hahead i other hi (by omega)
    | matched span =>
      by_cases hout : Choice.outreachedBy best? span = true
      -- the span becomes the best choice, so it is chosen or a longer one is
      · have h : Resolution.ofOutcomes (place + 1) (some ⟨place, span⟩) deepest rest =
            .chosen choice := by
          rw [← h, Resolution.ofOutcomes, if_pos hout]
        obtain ⟨hbest, hahead⟩ := ih h (by rintro best ⟨⟩; exact Nat.lt_succ_self place)
        have hspan : (⟨place, span⟩ : Choice) = choice ∨ span.stop < choice.span.stop :=
          hbest _ rfl
        refine ⟨fun best heq => Or.inr ?_, fun i other hi hlt => ?_⟩
        · subst heq
          have hlonger : best.span.stop < span.stop := by
            simpa [Choice.outreachedBy] using hout
          rcases hspan with rfl | hspan
          · exact hlonger
          · omega
        · cases i with
          | zero =>
            cases hi
            rcases hspan with rfl | hspan
            · exact absurd hlt (Nat.lt_irrefl _)
            · exact hspan
          | succ i => exact hahead i other hi (by omega)
      -- the span is no longer than the best choice, which stands ahead of it
      · have h : Resolution.ofOutcomes (place + 1) best? deepest rest = .chosen choice := by
          rw [← h, Resolution.ofOutcomes, if_neg hout]
        obtain ⟨hbest, hahead⟩ := ih h fun best heq => Nat.lt_succ_of_lt (hbehind best heq)
        refine ⟨hbest, fun i other hi hlt => ?_⟩
        cases i with
        | zero =>
          cases hi
          cases best? with
          | none => exact absurd rfl hout
          | some best =>
            have hshorter : span.stop ≤ best.span.stop := by
              simpa [Choice.outreachedBy] using hout
            have := hbehind best rfl
            rcases hbest best rfl with rfl | hbest
            · omega
            · omega
        | succ i => exact hahead i other hi (by omega)

/-- A failure means that all outcomes are failures; it is the deepest of them, or the one before
them. -/
theorem ofOutcomes_eq_noMatch
    (h : Resolution.ofOutcomes place best? deepest outcomes = .noMatch failure) :
    best? = none ∧ (failure = deepest ∨ Outcome.noMatch failure ∈ outcomes) ∧
      deepest.index ≤ failure.index ∧
      ∀ outcome ∈ outcomes, ∃ other : NoMatch, outcome = .noMatch other ∧
        other.index ≤ failure.index := by
  induction outcomes generalizing place best? deepest with
  | nil =>
    cases best? with
    | none => cases h; simp
    | some best => cases h
  | cons outcome rest ih =>
    cases outcome with
    | matched span =>
      -- a match leaves a best choice, and so no failure
      obtain ⟨hbest, -⟩ := ih h
      split_ifs at hbest with hout
      subst hbest
      exact absurd rfl hout
    | noMatch other =>
      obtain ⟨hbest, hfrom, hle, hrest⟩ := ih h
      rw [NoMatch.index_deeper] at hle
      refine ⟨hbest, ?_, by omega, List.forall_mem_cons.2 ⟨⟨other, rfl, by omega⟩, hrest⟩⟩
      rcases hfrom with hfrom | hfrom
      · unfold NoMatch.deeper at hfrom
        split_ifs at hfrom with hlt
        · exact Or.inr (by simp [hfrom])
        · exact Or.inl hfrom
      · exact Or.inr (List.mem_cons_of_mem _ hfrom)

/-- What holds of all outcomes, and of a failure where they begin, holds of what becomes of the
choice. -/
theorem toOutcome_ofOutcomes {P : Outcome → Prop} {pos : Nat} (hpos : P (.noMatchAt pos))
    (hall : ∀ outcome ∈ outcomes, P outcome) :
    P (Resolution.ofOutcomes 0 none ⟨pos⟩ outcomes).toOutcome := by
  cases h : Resolution.ofOutcomes 0 none ⟨pos⟩ outcomes with
  | chosen choice =>
    obtain ⟨hbest | ⟨i, hi, -⟩, -⟩ := ofOutcomes_eq_chosen h
    · cases hbest
    · exact hall _ (List.mem_of_getElem? hi)
  | noMatch failure =>
    obtain ⟨-, rfl | hmem, -⟩ := ofOutcomes_eq_noMatch h
    · exact hpos
    · exact hall _ hmem

end Outcomes

section Runs

variable {ε σ α : Type} {mode : Mode} {attempt : α → StateT σ (Except ε) Outcome}
  {alternatives : List α} {outcomes : List Outcome} {s s' : σ}

theorem run_resolve_eq_ok {pos : Nat} {resolution : Resolution} :
    (resolve mode alternatives pos attempt).run s = .ok (resolution, s') ↔
      ∃ outcomes, (triedOutcomes mode attempt alternatives).run s = .ok (outcomes, s') ∧
        resolution = Resolution.ofOutcomes 0 none ⟨pos⟩ outcomes := by
  rw [resolve_eq, map_eq_pure_bind, run_bind_eq_ok]
  constructor
  · rintro ⟨outcomes, t, hrun, h⟩
    obtain ⟨rfl, rfl⟩ := run_pure_eq_ok.1 h
    exact ⟨outcomes, hrun, rfl⟩
  · rintro ⟨outcomes, hrun, rfl⟩
    exact ⟨outcomes, s', hrun, rfl⟩

/-- A run through alternatives begins with a run of the first; it ends there, or goes on with the
others. -/
theorem run_triedOutcomes_cons {alternative : α} {rest : List α} :
    (triedOutcomes mode attempt (alternative :: rest)).run s = .ok (outcomes, s') ↔
      ∃ outcome t, (attempt alternative).run s = .ok (outcome, t) ∧
        ((mode = .parser ∧ outcome.span?.isSome ∧ outcomes = [outcome] ∧ s' = t) ∨
          ((mode = .lexer ∨ outcome.span? = none) ∧ ∃ others, outcomes = outcome :: others ∧
            (triedOutcomes mode attempt rest).run t = .ok (others, s'))) := by
  rw [triedOutcomes, run_bind_eq_ok]
  refine exists_congr fun outcome => exists_congr fun t => and_congr_right fun _ => ?_
  cases outcome with
  | matched span =>
    cases mode with
    | parser =>
      simp only [run_pure_eq_ok]
      simp [Outcome.span?]
    | lexer =>
      simp only [run_bind_eq_ok, run_pure_eq_ok, reduceCtorEq, false_and, true_or, true_and,
        false_or]
      constructor
      · rintro ⟨others, t', hrest, rfl, rfl⟩
        exact ⟨others, rfl, hrest⟩
      · rintro ⟨others, rfl, hrest⟩
        exact ⟨others, s', hrest, rfl, rfl⟩
  | noMatch failure =>
    simp only [run_bind_eq_ok, run_pure_eq_ok, Outcome.span?, Option.isSome_none,
      Bool.false_eq_true, false_and, and_false, or_true, true_and, false_or]
    constructor
    · rintro ⟨others, t', hrest, rfl, rfl⟩
      exact ⟨others, rfl, hrest⟩
    · rintro ⟨others, rfl, hrest⟩
      exact ⟨others, s', hrest, rfl, rfl⟩

/-- Where every alternative ends well so does trying them. -/
theorem exists_run_triedOutcomes
    (h : ∀ alternative ∈ alternatives, ∀ s, ∃ r, (attempt alternative).run s = .ok r) (s : σ) :
    ∃ r, (triedOutcomes mode attempt alternatives).run s = .ok r := by
  induction alternatives generalizing s with
  | nil => exact ⟨([], s), rfl⟩
  | cons alternative rest ih =>
    obtain ⟨⟨outcome, t⟩, hone⟩ := h alternative List.mem_cons_self s
    have hrest := ih fun a ha => h a (List.mem_cons_of_mem _ ha)
    rw [triedOutcomes]
    refine exists_run_bind hone ?_
    obtain ⟨⟨others, t'⟩, hothers⟩ := hrest t
    cases outcome with
    | matched span =>
      cases mode with
      | parser => exact ⟨_, rfl⟩
      | lexer => exact exists_run_bind hothers ⟨_, rfl⟩
    | noMatch failure => exact exists_run_bind hothers ⟨_, rfl⟩

/-- What holds of the outcome of every run of an alternative holds of all outcomes. -/
theorem forall_of_run_triedOutcomes {P : Outcome → Prop}
    (hP : ∀ alternative ∈ alternatives, ∀ s outcome s',
      (attempt alternative).run s = .ok (outcome, s') → P outcome)
    (h : (triedOutcomes mode attempt alternatives).run s = .ok (outcomes, s')) :
    ∀ outcome ∈ outcomes, P outcome := by
  induction alternatives generalizing s outcomes with
  | nil =>
    obtain ⟨rfl, -⟩ := run_pure_eq_ok.1 h
    simp
  | cons alternative rest ih =>
    obtain ⟨outcome, t, hone, ⟨-, -, rfl, -⟩ | ⟨-, others, rfl, hrest⟩⟩ :=
      run_triedOutcomes_cons.1 h
    · simpa using hP alternative List.mem_cons_self s outcome t hone
    · exact List.forall_mem_cons.2 ⟨hP alternative List.mem_cons_self s outcome t hone,
        ih (fun a ha => hP a (List.mem_cons_of_mem _ ha)) hrest⟩

/-- What every run of an alternative keeps of the state is kept by trying them. -/
theorem run_triedOutcomes_keeps {P : σ → Prop}
    (hP : ∀ alternative ∈ alternatives, ∀ s outcome s', P s →
      (attempt alternative).run s = .ok (outcome, s') → P s')
    (hs : P s) (h : (triedOutcomes mode attempt alternatives).run s = .ok (outcomes, s')) :
    P s' := by
  induction alternatives generalizing s outcomes with
  | nil =>
    obtain ⟨-, rfl⟩ := run_pure_eq_ok.1 h
    exact hs
  | cons alternative rest ih =>
    obtain ⟨outcome, t, hone, hcases⟩ := run_triedOutcomes_cons.1 h
    have ht := hP alternative List.mem_cons_self s outcome t hs hone
    rcases hcases with ⟨-, -, -, rfl⟩ | ⟨-, others, -, hrest⟩
    · exact ht
    · exact ih (fun a ha => hP a (List.mem_cons_of_mem _ ha)) ht hrest

/-- Where there are alternatives there are outcomes. -/
theorem ne_nil_of_run_triedOutcomes (hne : alternatives ≠ [])
    (h : (triedOutcomes mode attempt alternatives).run s = .ok (outcomes, s')) :
    outcomes ≠ [] := by
  cases alternatives with
  | nil => exact absurd rfl hne
  | cons alternative rest =>
    obtain ⟨outcome, t, -, ⟨-, -, rfl, -⟩ | ⟨-, others, rfl, -⟩⟩ := run_triedOutcomes_cons.1 h
    · simp
    · simp

/-- No more outcomes than alternatives. -/
theorem length_of_run_triedOutcomes
    (h : (triedOutcomes mode attempt alternatives).run s = .ok (outcomes, s')) :
    outcomes.length ≤ alternatives.length := by
  induction alternatives generalizing s outcomes with
  | nil =>
    obtain ⟨rfl, -⟩ := run_pure_eq_ok.1 h
    exact Nat.le_refl _
  | cons alternative rest ih =>
    obtain ⟨outcome, t, -, ⟨-, -, rfl, -⟩ | ⟨-, others, rfl, hrest⟩⟩ :=
      run_triedOutcomes_cons.1 h
    · simp
    · simpa using ih hrest

/-- In lexer mode every alternative is run, and its outcome is chosen from at its place. -/
theorem getElem?_of_run_triedOutcomes
    (h : (triedOutcomes .lexer attempt alternatives).run s = .ok (outcomes, s')) :
    ∀ (place : Nat) alternative, alternatives[place]? = some alternative → ∃ outcome t t',
      outcomes[place]? = some outcome ∧ (attempt alternative).run t = .ok (outcome, t') := by
  induction alternatives generalizing s outcomes with
  | nil => simp
  | cons first rest ih =>
    obtain ⟨outcome, t, hone, ⟨hmode, -⟩ | ⟨-, others, rfl, hrest⟩⟩ :=
      run_triedOutcomes_cons.1 h
    · cases hmode
    · intro place alternative hplace
      cases place with
      | zero =>
        cases hplace
        exact ⟨outcome, s, t, rfl, hone⟩
      | succ place => exact ih hrest place alternative hplace

/-- In lexer mode every alternative is run, and its outcome is among those chosen from. -/
theorem exists_run_of_run_triedOutcomes
    (h : (triedOutcomes .lexer attempt alternatives).run s = .ok (outcomes, s')) :
    ∀ alternative ∈ alternatives, ∃ t outcome t',
      (attempt alternative).run t = .ok (outcome, t') ∧ outcome ∈ outcomes := by
  intro alternative ha
  obtain ⟨place, hplace⟩ := List.getElem?_of_mem ha
  obtain ⟨outcome, t, t', houtcome, hrun⟩ := getElem?_of_run_triedOutcomes h place _ hplace
  exact ⟨t, outcome, t', hrun, List.mem_of_getElem? houtcome⟩

/-- Where none matches every alternative is run in either mode, and its outcome is among those
chosen from. -/
theorem exists_run_of_no_match
    (h : (triedOutcomes mode attempt alternatives).run s = .ok (outcomes, s'))
    (hnone : ∀ outcome ∈ outcomes, outcome.span? = none) :
    ∀ alternative ∈ alternatives, ∃ t outcome t',
      (attempt alternative).run t = .ok (outcome, t') ∧ outcome ∈ outcomes := by
  induction alternatives generalizing s outcomes with
  | nil => simp
  | cons first rest ih =>
    intro alternative ha
    obtain ⟨outcome, t, hone, ⟨-, hsome, rfl, -⟩ | ⟨-, others, rfl, hrest⟩⟩ :=
      run_triedOutcomes_cons.1 h
    · simp [hnone outcome List.mem_cons_self] at hsome
    · rcases List.mem_cons.1 ha with rfl | ha
      · exact ⟨s, outcome, t, hone, List.mem_cons_self⟩
      · obtain ⟨u, found, u', hrun, hmem⟩ :=
          ih hrest (fun other ho => hnone other (List.mem_cons_of_mem _ ho)) alternative ha
        exact ⟨u, found, u', hrun, List.mem_cons_of_mem _ hmem⟩

/-- An error while alternatives are tried is one of an alternative. -/
theorem exists_error_of_run_triedOutcomes {e : ε}
    (h : (triedOutcomes mode attempt alternatives).run s = .error e) :
    ∃ alternative ∈ alternatives, ∃ t, (attempt alternative).run t = .error e := by
  induction alternatives generalizing s mode with
  | nil => cases h
  | cons alternative rest ih =>
    rw [triedOutcomes] at h
    rcases run_bind_eq_error.1 h with hone | ⟨outcome, t, -, h⟩
    · exact ⟨alternative, List.mem_cons_self, s, hone⟩
    · have hrest : ∀ {mode : Mode} {g : List Outcome → List Outcome},
          ((triedOutcomes mode attempt rest >>= fun outcomes => pure (g outcomes) :
            StateT σ (Except ε) (List Outcome))).run t = .error e →
          ∃ other ∈ alternative :: rest, ∃ t, (attempt other).run t = .error e := by
        intro mode g h
        rcases run_bind_eq_error.1 h with h | ⟨others, t', -, h⟩
        · obtain ⟨other, hmem, t, herror⟩ := ih h
          exact ⟨other, List.mem_cons_of_mem _ hmem, t, herror⟩
        · cases h
      cases outcome with
      | matched span =>
        cases mode with
        | parser => cases h
        | lexer => exact hrest h
      | noMatch failure => exact hrest h

theorem exists_error_of_run_resolve {pos : Nat} {e : ε}
    (h : (resolve mode alternatives pos attempt).run s = .error e) :
    ∃ alternative ∈ alternatives, ∃ t, (attempt alternative).run t = .error e := by
  rw [resolve_eq, map_eq_pure_bind] at h
  rcases run_bind_eq_error.1 h with h | ⟨outcomes, t, -, h⟩
  · exact exists_error_of_run_triedOutcomes h
  · cases h

end Runs

end Packrat
