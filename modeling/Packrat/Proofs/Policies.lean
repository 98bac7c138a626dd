import Packrat.Proofs.Choice
import Mathlib.Order.Bounds.Basic

/-!
# What the two policies choose

The policies are run on attempts whose outcomes are given beforehand, and that keep a list of the
alternatives that were tried. So it shows what a policy chooses, and how far it goes for it.

* `scripted`: attempts with given outcomes; `run_resolve_scripted`: a policy that is run on them.
* `FirstMatch`, `LongestMatch`, `NoneMatches`: what outcomes are to come to.
* `follows_firstMatch`, `follows_longestMatch`: **so they come to it**, and to nothing else
  (`Follows.eq_iff`).
* `policies_exact`: both policies, with the attempts that they make.
-/

namespace Packrat

section Scripts

variable {α : Type}

/-- An attempt with an outcome that is given beforehand. It may depend on the alternative and on
how many attempts were made before. The state lists the alternatives that were tried. -/
def scripted (outcome : Nat → α → Outcome) (alternative : α) : StateM (List α) Outcome := do
  let tried ← get
  set (tried ++ [alternative])
  return outcome tried.length alternative

/-- How many outcomes a policy asks for, if there are as many. -/
def attemptsMade (mode : Mode) (outcomes : List Outcome) : Nat :=
  match mode with
  | .parser => outcomes.findIdx (·.span?.isSome) + 1
  | .lexer => outcomes.length

theorem attemptsMade_cons_noMatch (mode : Mode) (failure : NoMatch) (rest : List Outcome) :
    attemptsMade mode (.noMatch failure :: rest) = attemptsMade mode rest + 1 := by
  cases mode <;> simp [attemptsMade, List.findIdx_cons, Outcome.span?]

/-- Given outcomes are taken one after another, as far as the policy goes. -/
theorem run_triedOutcomes_scripted (mode : Mode) (outcome : Nat → α → Outcome)
    (alternatives tried : List α) :
    (triedOutcomes mode (scripted outcome) alternatives).run tried =
      (let outcomes := alternatives.mapIdx fun place => outcome (tried.length + place)
       (outcomes.take (attemptsMade mode outcomes),
        tried ++ alternatives.take (attemptsMade mode outcomes)) : List Outcome × List α) := by
  induction alternatives generalizing tried with
  | nil =>
    simp only [triedOutcomes, List.mapIdx_nil, List.take_nil, List.append_nil]
    rfl
  | cons alternative rest ih =>
    have hone : (scripted outcome alternative).run tried =
        ((outcome tried.length alternative, tried ++ [alternative]) : Outcome × List α) := rfl
    have hplace : (fun place => outcome ((tried ++ [alternative]).length + place)) =
        fun place => outcome (tried.length + (place + 1)) := by
      funext place
      rw [List.length_append, List.length_singleton, Nat.add_assoc, Nat.add_comm 1]
    have hrest := ih (tried ++ [alternative])
    rw [hplace] at hrest
    rw [triedOutcomes, StateT.run_bind, hone]
    simp only [List.mapIdx_cons, Nat.add_zero]
    generalize outcome tried.length alternative = head
    generalize rest.mapIdx (fun place => outcome (tried.length + (place + 1))) = outcomes at hrest
    -- where the policy goes on, the outcome stands ahead of those that follow
    cases head with
    | noMatch failure =>
      show (triedOutcomes mode (scripted outcome) rest >>= fun outcomes =>
        pure (.noMatch failure :: outcomes)).run (tried ++ [alternative]) = _
      rw [StateT.run_bind, hrest, attemptsMade_cons_noMatch]
      simp only [List.take_succ_cons, List.append_assoc, List.singleton_append]
      rfl
    | matched span =>
      cases mode with
      | parser =>
        simp only [attemptsMade, List.findIdx_cons, Outcome.span?, Option.isSome_some, cond_true,
          Nat.zero_add, List.take_succ_cons, List.take_zero]
        rfl
      | lexer =>
        show (triedOutcomes .lexer (scripted outcome) rest >>= fun outcomes =>
          pure (.matched span :: outcomes)).run (tried ++ [alternative]) = _
        rw [StateT.run_bind, hrest]
        simp only [attemptsMade, List.length_cons, List.take_succ_cons, List.append_assoc,
          List.singleton_append]
        rfl

/-- **A policy on given outcomes**: what it comes to, and the alternatives that it tries. -/
theorem run_resolve_scripted (mode : Mode) (outcome : Nat → α → Outcome) (alternatives : List α)
    (pos : Nat) :
    (resolve mode alternatives pos (scripted outcome)).run [] =
      (let outcomes := alternatives.mapIdx outcome
       (Resolution.ofOutcomes 0 none ⟨pos⟩ (outcomes.take (attemptsMade mode outcomes)),
        alternatives.take (attemptsMade mode outcomes)) : Resolution × List α) := by
  have htried := run_triedOutcomes_scripted mode outcome alternatives []
  simp only [List.length_nil, Nat.zero_add, List.nil_append] at htried
  rw [resolve_eq, StateT.run_map, htried]
  rfl

end Scripts

/-- The choice is the first match among outcomes: all before it are failures. -/
structure FirstMatch (outcomes : List Outcome) (choice : Choice) : Prop where
  matched : outcomes[choice.alternative]? = some (.matched choice.span)
  first : ∀ place < choice.alternative, ∃ failure, outcomes[place]? = some (.noMatch failure)

/-- The choice is the longest match among outcomes: no match ends behind it, and those before it
end sooner. -/
structure LongestMatch (outcomes : List Outcome) (choice : Choice) : Prop where
  matched : outcomes[choice.alternative]? = some (.matched choice.span)
  longest : ∀ (place : Nat) span, outcomes[place]? = some (.matched span) →
    span.stop ≤ choice.span.stop
  first : ∀ place < choice.alternative, ∀ span, outcomes[place]? = some (.matched span) →
    span.stop < choice.span.stop

/-- All outcomes are failures, and `failure` is the deepest of them, or one at `pos`. -/
structure NoneMatches (pos : Nat) (outcomes : List Outcome) (failure : NoMatch) : Prop where
  failed : ∀ outcome ∈ outcomes, ∃ other : NoMatch, outcome = .noMatch other
  deepest : IsGreatest {index | index = pos ∨ Outcome.noMatchAt index ∈ outcomes} failure.index

/-- The choice is one that `Picks` allows, and there is none only if nothing matches. -/
def Resolution.Follows (Picks : List Outcome → Choice → Prop) (pos : Nat)
    (outcomes : List Outcome) : Resolution → Prop
  | .chosen choice => Picks outcomes choice
  | .noMatch failure => NoneMatches pos outcomes failure

variable {outcomes : List Outcome} {choice choice' : Choice} {failure failure' : NoMatch}
  {pos : Nat}

theorem FirstMatch.unique (h : FirstMatch outcomes choice) (h' : FirstMatch outcomes choice') :
    choice = choice' := by
  obtain ⟨place, span⟩ := choice
  obtain ⟨place', span'⟩ := choice'
  have hmatched : outcomes[place]? = some (.matched span) := h.matched
  have hmatched' : outcomes[place']? = some (.matched span') := h'.matched
  rcases Nat.lt_trichotomy place place' with hlt | rfl | hlt
  · obtain ⟨failure, hfailure⟩ := h'.first place hlt
    rw [hfailure] at hmatched
    cases hmatched
  · rw [hmatched'] at hmatched
    cases hmatched
    rfl
  · obtain ⟨failure, hfailure⟩ := h.first place' hlt
    rw [hfailure] at hmatched'
    cases hmatched'

theorem LongestMatch.unique (h : LongestMatch outcomes choice)
    (h' : LongestMatch outcomes choice') : choice = choice' := by
  obtain ⟨place, span⟩ := choice
  obtain ⟨place', span'⟩ := choice'
  have hmatched : outcomes[place]? = some (.matched span) := h.matched
  have hmatched' : outcomes[place']? = some (.matched span') := h'.matched
  have hle : span.stop ≤ span'.stop := h'.longest place span hmatched
  have hle' : span'.stop ≤ span.stop := h.longest place' span' hmatched'
  rcases Nat.lt_trichotomy place place' with hlt | rfl | hlt
  · have hshorter : span.stop < span'.stop := h'.first place hlt span hmatched
    omega
  · rw [hmatched'] at hmatched
    cases hmatched
    rfl
  · have hshorter : span'.stop < span.stop := h.first place' hlt span' hmatched'
    omega

theorem NoneMatches.unique (h : NoneMatches pos outcomes failure)
    (h' : NoneMatches pos outcomes failure') : failure = failure' := by
  obtain ⟨index⟩ := failure
  obtain ⟨index'⟩ := failure'
  obtain rfl : index = index' := h.deepest.unique h'.deepest
  rfl

theorem NoneMatches.not_matched (h : NoneMatches pos outcomes failure) (place : Nat)
    (span : Span) : outcomes[place]? ≠ some (.matched span) := by
  intro hmatched
  obtain ⟨other, hother⟩ := h.failed _ (List.mem_of_getElem? hmatched)
  cases hother

/-- **Outcomes come to one resolution only**, when no two choices are allowed and each is that of a
match. -/
theorem Resolution.Follows.eq_iff {Picks : List Outcome → Choice → Prop} {r r' : Resolution}
    (hunique : ∀ {choice choice'}, Picks outcomes choice → Picks outcomes choice' →
      choice = choice')
    (hmatched : ∀ {choice}, Picks outcomes choice →
      outcomes[choice.alternative]? = some (.matched choice.span))
    (h : r.Follows Picks pos outcomes) : r = r' ↔ r'.Follows Picks pos outcomes := by
  refine ⟨fun heq => heq ▸ h, fun h' => ?_⟩
  cases r with
  | chosen choice =>
    cases r' with
    | chosen choice' => rw [hunique h h']
    | noMatch failure => exact absurd (hmatched h) (NoneMatches.not_matched h' _ _)
  | noMatch failure =>
    cases r' with
    | chosen choice' => exact absurd (hmatched h') (NoneMatches.not_matched h _ _)
    | noMatch failure' => rw [NoneMatches.unique h h']

/-- A failure is the deepest of all outcomes, which are failures. -/
theorem noneMatches_ofOutcomes
    (h : Resolution.ofOutcomes 0 none ⟨pos⟩ outcomes = .noMatch failure) :
    NoneMatches pos outcomes failure := by
  obtain ⟨-, hfrom, hle, hfailed⟩ := ofOutcomes_eq_noMatch h
  refine ⟨fun outcome hmem => ?_, ?_, ?_⟩
  · obtain ⟨other, hother, -⟩ := hfailed outcome hmem
    exact ⟨other, hother⟩
  · rcases hfrom with rfl | hmem
    · exact .inl rfl
    · exact .inr hmem
  · rintro index (rfl | hmem)
    · exact hle
    · obtain ⟨other, hother, hindex⟩ := hfailed _ hmem
      cases hother
      exact hindex

/-- **The longest match is chosen** from all outcomes. -/
theorem follows_longestMatch (pos : Nat) (outcomes : List Outcome) :
    (Resolution.ofOutcomes 0 none ⟨pos⟩ outcomes).Follows LongestMatch pos outcomes := by
  cases h : Resolution.ofOutcomes 0 none ⟨pos⟩ outcomes with
  | noMatch failure => exact noneMatches_ofOutcomes h
  | chosen choice =>
    obtain ⟨hfrom, -, hlongest⟩ := ofOutcomes_eq_chosen h
    obtain ⟨-, hahead⟩ := stop_lt_of_ofOutcomes_eq_chosen h (by simp)
    rcases hfrom with hbest | ⟨place, hplace, halternative⟩
    · cases hbest
    · rw [Nat.zero_add] at halternative
      refine ⟨by rw [halternative]; exact hplace, ?_, fun place hlt span hspan => ?_⟩
      · exact fun place span hspan => hlongest span (List.mem_of_getElem? hspan)
      · exact hahead place span hspan (by rwa [Nat.zero_add])

/-- What stands ahead of the first match is a failure. -/
theorem exists_failure_of_lt_findIdx {place : Nat}
    (h : place < outcomes.findIdx (·.span?.isSome)) :
    ∃ failure, outcomes[place]? = some (.noMatch failure) := by
  have hlt : place < outcomes.length := Nat.lt_of_lt_of_le h List.findIdx_le_length
  have hnot := List.not_of_lt_findIdx h
  rw [List.getElem?_eq_getElem hlt]
  cases houtcome : outcomes[place] with
  | matched span => simp [houtcome, Outcome.span?] at hnot
  | noMatch failure => exact ⟨failure, rfl⟩

/-- **The first match is chosen** from the outcomes up to it. -/
theorem follows_firstMatch (pos : Nat) (outcomes : List Outcome) :
    (Resolution.ofOutcomes 0 none ⟨pos⟩
      (outcomes.take (attemptsMade .parser outcomes))).Follows FirstMatch pos outcomes := by
  rw [attemptsMade]
  set count := outcomes.findIdx (·.span?.isSome) with hcount
  cases h : Resolution.ofOutcomes 0 none ⟨pos⟩ (outcomes.take (count + 1)) with
  | chosen choice =>
    obtain ⟨hbest | ⟨place, hplace, halternative⟩, -⟩ := ofOutcomes_eq_chosen h
    · cases hbest
    · rw [Nat.zero_add] at halternative
      rw [List.getElem?_take] at hplace
      split_ifs at hplace with hlt
      -- only the last of the outcomes up to the first match is a match
      have hge : ¬ place < count := by
        intro hahead
        obtain ⟨failure, hfailure⟩ := exists_failure_of_lt_findIdx hahead
        rw [hfailure] at hplace
        cases hplace
      obtain rfl : place = count := by omega
      refine ⟨by rw [halternative]; exact hplace, fun ahead hahead => ?_⟩
      exact exists_failure_of_lt_findIdx (by omega)
  | noMatch failure =>
    have hnone := noneMatches_ofOutcomes h
    -- were there a match, the first of them would be among the outcomes looked at
    have hlength : outcomes.length ≤ count := by
      by_contra hlt
      have hfound : outcomes[count].span?.isSome = true :=
        List.findIdx_getElem (p := fun outcome : Outcome => outcome.span?.isSome)
      obtain ⟨span, hspan⟩ := Option.isSome_iff_exists.1 hfound
      refine hnone.not_matched count span ?_
      rw [List.getElem?_take, if_pos (Nat.lt_succ_self count), List.getElem?_eq_getElem (by omega)]
      cases houtcome : outcomes[count] with
      | matched other =>
        rw [houtcome] at hspan
        cases hspan
        rfl
      | noMatch failure =>
        rw [houtcome] at hspan
        cases hspan
    rwa [List.take_of_length_le (by omega)] at hnone

/-- A policy makes no choice just when nothing matches. -/
theorem Resolution.Follows.exists_noMatch_iff {Picks : List Outcome → Choice → Prop}
    {r : Resolution}
    (hmatched : ∀ {choice}, Picks outcomes choice →
      outcomes[choice.alternative]? = some (.matched choice.span))
    (h : r.Follows Picks pos outcomes) :
    (∃ failure, r = .noMatch failure) ↔ ∀ span, Outcome.matched span ∉ outcomes := by
  constructor
  · rintro ⟨failure, rfl⟩ span hspan
    obtain ⟨place, hplace⟩ := List.getElem?_of_mem hspan
    exact NoneMatches.not_matched h place span hplace
  · intro hnone
    cases r with
    | chosen choice => exact absurd (List.mem_of_getElem? (hmatched h)) (hnone choice.span)
    | noMatch failure => exact ⟨failure, rfl⟩

/-- Where nothing matches ordered choice tries all alternatives. -/
theorem length_le_attemptsMade (hnone : ∀ span, Outcome.matched span ∉ outcomes) (mode : Mode) :
    outcomes.length ≤ attemptsMade mode outcomes := by
  cases mode with
  | lexer => exact Nat.le_refl _
  | parser =>
    refine Nat.le_succ_of_le (Nat.le_of_eq (List.findIdx_eq_length.2 fun outcome hmem => ?_).symm)
    cases outcome with
    | matched span => exact absurd hmem (hnone span)
    | noMatch failure => rfl

/-- Ordered choice goes as far as the first match. -/
theorem FirstMatch.attemptsMade_eq (h : FirstMatch outcomes choice) :
    attemptsMade .parser outcomes = choice.alternative + 1 := by
  obtain ⟨hlt, hmatched⟩ := List.getElem?_eq_some_iff.1 h.matched
  rw [attemptsMade, (List.findIdx_eq hlt).2 ⟨by rw [hmatched]; rfl, fun place hplace => ?_⟩]
  obtain ⟨failure, hfailure⟩ := h.first place hplace
  rw [(List.getElem?_eq_some_iff.1 hfailure).2]
  rfl

variable {α : Type}

/-- **Both policies meet their reference.** For any alternatives and any outcomes of theirs, ordered
choice comes to the first match, and tries the alternatives up to it; longest match tries all
alternatives once, in order, and comes to the first of those matches that end last. Either of them
fails just when nothing matches, after all alternatives were tried, at the deepest of the failures
and the offset it began at. So on the same outcomes they fail alike, and a longest match ends no
sooner than an ordered choice. -/
theorem policies_exact (alternatives : List α) (pos : Nat) (outcome : Nat → α → Outcome) :
    let outcomes := alternatives.mapIdx outcome
    let ordered : Resolution × List α :=
      (orderedChoice alternatives pos (scripted outcome)).run []
    let longest : Resolution × List α :=
      (longestMatch alternatives pos (scripted outcome)).run []
    (∀ choice, ordered.1 = .chosen choice ↔ FirstMatch outcomes choice) ∧
      (∀ choice, ordered.1 = .chosen choice →
        ordered.2 = alternatives.take (choice.alternative + 1)) ∧
      (∀ choice, longest.1 = .chosen choice ↔ LongestMatch outcomes choice) ∧
      longest.2 = alternatives ∧
      (∀ failure, ordered.1 = .noMatch failure ↔ NoneMatches pos outcomes failure) ∧
      (∀ failure, longest.1 = .noMatch failure ↔ NoneMatches pos outcomes failure) ∧
      ((∃ failure, ordered.1 = .noMatch failure) ↔ ∀ span, .matched span ∉ outcomes) ∧
      ((∃ failure, longest.1 = .noMatch failure) ↔ ∀ span, .matched span ∉ outcomes) ∧
      (∀ failure, ordered.1 = .noMatch failure → ordered.2 = alternatives) ∧
      ∀ choice choice', ordered.1 = .chosen choice → longest.1 = .chosen choice' →
        choice.span.stop ≤ choice'.span.stop := by
  intro outcomes ordered longest
  have hordered : ordered = (Resolution.ofOutcomes 0 none ⟨pos⟩
      (outcomes.take (attemptsMade .parser outcomes)),
        alternatives.take (attemptsMade .parser outcomes)) :=
    run_resolve_scripted .parser outcome alternatives pos
  have hlongest : longest = (Resolution.ofOutcomes 0 none ⟨pos⟩
      (outcomes.take (attemptsMade .lexer outcomes)),
        alternatives.take (attemptsMade .lexer outcomes)) :=
    run_resolve_scripted .lexer outcome alternatives pos
  have hlength : outcomes.length = alternatives.length := List.length_mapIdx
  have hfirst : ordered.1.Follows FirstMatch pos outcomes := by
    rw [hordered]
    exact follows_firstMatch pos outcomes
  have hlast : longest.1.Follows LongestMatch pos outcomes := by
    rw [hlongest, attemptsMade, List.take_length]
    exact follows_longestMatch pos outcomes
  have hchosen : ∀ choice, ordered.1 = .chosen choice ↔ FirstMatch outcomes choice :=
    fun choice => hfirst.eq_iff FirstMatch.unique FirstMatch.matched
  have hchosen' : ∀ choice, longest.1 = .chosen choice ↔ LongestMatch outcomes choice :=
    fun choice => hlast.eq_iff LongestMatch.unique LongestMatch.matched
  have hnone := hfirst.exists_noMatch_iff FirstMatch.matched
  refine ⟨hchosen, fun choice h => ?_, hchosen', ?_,
    fun failure => hfirst.eq_iff FirstMatch.unique FirstMatch.matched,
    fun failure => hlast.eq_iff LongestMatch.unique LongestMatch.matched, hnone,
    hlast.exists_noMatch_iff LongestMatch.matched, fun failure h => ?_,
    fun choice choice' h h' => ?_⟩
  · rw [hordered, ((hchosen choice).1 h).attemptsMade_eq]
  · rw [hlongest, attemptsMade, hlength, List.take_length]
  · rw [hordered]
    refine List.take_of_length_le ?_
    rw [← hlength]
    exact length_le_attemptsMade (hnone.1 ⟨failure, h⟩) .parser
  · exact ((hchosen' choice').1 h').longest _ _ ((hchosen choice).1 h).matched

end Packrat
