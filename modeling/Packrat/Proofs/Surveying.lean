import Packrat.Evaluation.Survey
import Packrat.Proofs.PlainRun

/-!
# What a plain evaluation asks for

A plain evaluation comes to the same outcome whether or not it is surveyed, and its survey depends
on nothing but the node, the offset and the mode. While a rule is settled it asks for less than
what asked for it.

* `evalNode_surveyed`: **a survey changes no outcome.**
* `Arena.Surveys.unique`: a key has one survey, whatever the limit on the depth.
* `Arena.Surveys.nested`: **the keys of a survey have smaller surveys** within it.
* `from_of_evalNode`: the keys that an evaluation asks for, by rule, offset and mode.
-/

namespace Packrat

open Evaluation

section Parts

variable {α β : Type} {x : Surveyed α} {f : α → Surveyed β} {b : β} {survey : Survey}
  {key : Memo.Key}

theorem surveyed_bind_eq_ok :
    (x >>= f) = .ok (b, survey) ↔ ∃ a first second, x = .ok (a, first) ∧
      f a = .ok (b, second) ∧ survey = first.append second := by
  show Surveyed.bind x f = .ok (b, survey) ↔ _
  unfold Surveyed.bind
  constructor
  · intro h
    split at h
    · cases h
    · rename_i a first
      split at h
      · cases h
      · rename_i b second hf
        cases h
        exact ⟨a, first, second, rfl, hf, rfl⟩
  · rintro ⟨a, first, second, rfl, hf, rfl⟩
    simp only [hf]
    rfl

theorem surveyed_settle_eq_ok {body : Surveyed Resolution} {resolution : Resolution} :
    Surveyed.settle key body = .ok (resolution, survey) ↔
      ∃ inner, body = .ok (resolution, inner) ∧ survey = .asking key inner := by
  unfold Surveyed.settle
  cases body with
  | error e => simp
  | ok r =>
    obtain ⟨found, inner⟩ := r
    constructor
    · intro h
      cases h
      exact ⟨inner, rfl, rfl⟩
    · rintro ⟨other, h, rfl⟩
      cases h
      rfl

theorem Survey.mem_append {first second : Survey} :
    key ∈ (first.append second).all ↔ key ∈ first.all ∨ key ∈ second.all :=
  List.mem_append

theorem Survey.mem_asking {other : Memo.Key} :
    key ∈ (Survey.asking other survey).all ↔ key = other ∨ key ∈ survey.all :=
  List.mem_cons

end Parts

variable {arena : Arena} {input : Input} {mode : Mode} {depth depth' pos f f' : Nat} {id : NodeId}
  {outcome : Outcome} {survey : Survey}

/-- A surveyed evaluation of a node. -/
abbrev surveyedNode (arena : Arena) (input : Input) (mode : Mode) (depth : Nat) (id : NodeId)
    (pos : Nat) : Surveyed Outcome :=
  evalNode arena input mode depth id pos

/-- The surveyed choice between the alternatives of a rule. -/
abbrev surveyedBody (arena : Arena) (input : Input) (mode : Mode) (depth : Nat) (rule : Rule)
    (pos : Nat) : Surveyed Resolution :=
  resolve mode rule.alternatives pos (surveyedNode arena input mode depth · pos)

/-- One computation comes to a value where the other does. -/
def sameValues : Simulation Attempt Surveyed where
  Rel x y := ∀ f a, (∃ f', x.run f = .ok (a, f')) ↔ ∃ survey, y = .ok (a, survey)
  pure a := by
    intro f b
    constructor
    · rintro ⟨f', h⟩
      obtain ⟨rfl, -⟩ := run_pure_eq_ok.1 h
      exact ⟨.empty, rfl⟩
    · rintro ⟨survey, h⟩
      cases h
      exact ⟨f, rfl⟩
  bind hxy hfg := by
    intro f b
    constructor
    · rintro ⟨f', h⟩
      obtain ⟨a, t, hx, hf⟩ := run_bind_eq_ok.1 h
      obtain ⟨first, hy⟩ := (hxy f a).1 ⟨t, hx⟩
      obtain ⟨second, hg⟩ := (hfg a t b).1 ⟨f', hf⟩
      exact ⟨_, surveyed_bind_eq_ok.2 ⟨a, first, second, hy, hg, rfl⟩⟩
    · rintro ⟨survey, h⟩
      obtain ⟨a, first, second, hy, hg, -⟩ := surveyed_bind_eq_ok.1 h
      obtain ⟨t, hx⟩ := (hxy f a).2 ⟨first, hy⟩
      obtain ⟨f', hf⟩ := (hfg a t b).2 ⟨second, hg⟩
      exact ⟨f', run_bind_eq_ok.2 ⟨a, t, hx, hf⟩⟩
  fault e := by
    intro f a
    constructor
    · rintro ⟨f', h⟩
      cases h
    · rintro ⟨survey, h⟩
      cases h
  tried offset outcome := by
    intro f a
    exact ⟨fun _ => ⟨.empty, rfl⟩, fun _ => ⟨f, rfl⟩⟩
  reach index := by
    intro f a
    exact ⟨fun _ => ⟨.empty, rfl⟩, fun _ => ⟨max f index, rfl⟩⟩

/-- **A survey changes no outcome**, nor whether there is one. -/
theorem evalNode_surveyed (depth : Nat) (id : NodeId) (pos : Nat) :
    sameValues.Rel (plainNode arena input mode depth id pos)
      (surveyedNode arena input mode depth id pos) := by
  induction depth generalizing id pos with
  | zero => exact sameValues.fault _
  | succ depth ih =>
    refine sameValues.evalNode_succ ?_ ih id pos
    intro rid rule pos hrule hbody f resolution
    constructor
    · rintro ⟨f', hsettle⟩
      obtain ⟨inner, hrun, -⟩ := settle_run_eq_ok.1 hsettle
      obtain ⟨survey, hsurvey⟩ := (hbody pos resolution).1 ⟨inner, hrun⟩
      exact ⟨_, surveyed_settle_eq_ok.2 ⟨survey, hsurvey, rfl⟩⟩
    · rintro ⟨survey, hsettle⟩
      obtain ⟨inner, hsurvey, -⟩ := surveyed_settle_eq_ok.1 hsettle
      obtain ⟨f', hrun⟩ := (hbody pos resolution).2 ⟨inner, hsurvey⟩
      exact ⟨_, settle_run_eq_ok.2 ⟨f', hrun, rfl⟩⟩

/-- **Where failures are counted from makes no difference to an outcome.** -/
theorem evalNode_value (g : Nat)
    (h : (plainNode arena input mode depth id pos).run f = .ok (outcome, f')) :
    ∃ g', (plainNode arena input mode depth id pos).run g = .ok (outcome, g') := by
  have hsame : sameValues.Rel (plainNode arena input mode depth id pos)
      (surveyedNode arena input mode depth id pos) := evalNode_surveyed depth id pos
  exact (hsame g outcome).2 ((hsame f outcome).1 ⟨f', h⟩)

/-- Where the first surveyed computation ends well so does the second, with the same survey. -/
def keepsSurveys : Simulation Surveyed Surveyed where
  Rel x y := ∀ r, x = .ok r → y = .ok r
  pure _ _ h := h
  bind hxy hfg r h := by
    obtain ⟨b, survey⟩ := r
    obtain ⟨a, first, second, hx, hf, rfl⟩ := surveyed_bind_eq_ok.1 h
    exact surveyed_bind_eq_ok.2 ⟨a, first, second, hxy _ hx, hfg a _ hf, rfl⟩
  fault _ _ h := h
  tried _ _ _ h := h
  reach _ _ h := h

/-- The second of two surveyed computations ends as the first does, also where the first has a lower
limit. -/
def extendsSurveys : Extension Surveyed where
  toSimulation := keepsSurveys
  gaveUp _ _ _ h := by cases h
  settling key x y hxy r h := by
    obtain ⟨resolution, survey⟩ := r
    obtain ⟨inner, hrun, rfl⟩ := surveyed_settle_eq_ok.1 h
    exact surveyed_settle_eq_ok.2 ⟨inner, hxy _ hrun, rfl⟩

theorem surveyedNode_mono (hle : depth ≤ depth') (id : NodeId) (pos : Nat) :
    keepsSurveys.Rel (surveyedNode arena input mode depth id pos)
      (surveyedNode arena input mode depth' id pos) :=
  extendsSurveys.evalNode_mono hle id pos

/-- **A higher limit changes nothing** in what a rule asks for. -/
theorem surveyedBody_mono (hle : depth ≤ depth') (rule : Rule) (pos : Nat) :
    keepsSurveys.Rel (surveyedBody arena input mode depth rule pos)
      (surveyedBody arena input mode depth' rule pos) :=
  keepsSurveys.resolve mode pos fun alternative _ => surveyedNode_mono hle alternative pos

/-- The rule of a key is settled so, and asks for so much, when there is no table. -/
def Arena.Surveys (arena : Arena) (input : Input) (key : Memo.Key) (resolution : Resolution)
    (survey : Survey) : Prop :=
  ∃ rule depth, arena.rule? key.rule = some rule ∧
    surveyedBody arena input key.mode depth rule key.offset = .ok (resolution, survey)

/-- **A key has one survey**, whatever the limit on the depth. -/
theorem Arena.Surveys.unique {key : Memo.Key} {resolution resolution' : Resolution}
    {survey' : Survey} (h : arena.Surveys input key resolution survey)
    (h' : arena.Surveys input key resolution' survey') :
    resolution = resolution' ∧ survey = survey' := by
  obtain ⟨rule, depth, hrule, hbody⟩ := h
  obtain ⟨rule', depth', hrule', hbody'⟩ := h'
  rw [hrule] at hrule'
  cases hrule'
  have h := surveyedBody_mono (Nat.le_max_left depth depth') rule key.offset _ hbody
  rw [surveyedBody_mono (Nat.le_max_right depth depth') rule key.offset _ hbody'] at h
  cases h
  exact ⟨rfl, rfl⟩

/-- What holds of no keys, and of keys that are asked for one after another, holds of the survey of
a computation when it holds of those of its parts. -/
def surveysHave (P : Survey → Prop) (hempty : P .empty)
    (happend : ∀ {first second}, P first → P second → P (first.append second)) :
    Simulation Surveyed Surveyed where
  Rel x _ := ∀ a survey, x = .ok (a, survey) → P survey
  pure a := by
    intro b survey h
    cases h
    exact hempty
  bind hxy hfg := by
    intro b survey h
    obtain ⟨a, first, second, hx, hf, rfl⟩ := surveyed_bind_eq_ok.1 h
    exact happend (hxy a first hx) (hfg a b second hf)
  fault e := by
    intro a survey h
    cases h
  tried offset outcome := by
    intro a survey h
    cases h
    exact hempty
  reach index := by
    intro a survey h
    cases h
    exact hempty

/-- Each key that is asked for has a survey within this one, and a smaller one. -/
def Nested (arena : Arena) (input : Input) (survey : Survey) : Prop :=
  ∀ key ∈ survey.all, ∃ resolution inner, arena.Surveys input key resolution inner ∧
    inner.all ⊆ survey.all ∧ inner.all.length < survey.all.length

theorem Nested.append {first second : Survey} (hfirst : Nested arena input first)
    (hsecond : Nested arena input second) : Nested arena input (first.append second) := by
  intro key hkey
  rcases Survey.mem_append.1 hkey with hkey | hkey
  · obtain ⟨resolution, inner, hinner, hsub, hlen⟩ := hfirst key hkey
    refine ⟨resolution, inner, hinner, fun k hk => Survey.mem_append.2 (Or.inl (hsub hk)), ?_⟩
    rw [Survey.append, List.length_append]
    omega
  · obtain ⟨resolution, inner, hinner, hsub, hlen⟩ := hsecond key hkey
    refine ⟨resolution, inner, hinner, fun k hk => Survey.mem_append.2 (Or.inr (hsub hk)), ?_⟩
    rw [Survey.append, List.length_append]
    omega

/-- Computations whose surveys are nested. -/
def nesting (arena : Arena) (input : Input) : Simulation Surveyed Surveyed :=
  surveysHave (Nested arena input) (by simp [Nested, Survey.empty]) Nested.append

/-- Surveys are nested: while a rule is settled it asks for less than what asked for it. -/
theorem nested_of_evalNode (depth : Nat) (id : NodeId) (pos : Nat) :
    (nesting arena input).Rel (surveyedNode arena input mode depth id pos)
      (surveyedNode arena input mode depth id pos) := by
  induction depth generalizing id pos with
  | zero => exact (nesting arena input).fault _
  | succ depth ih =>
    refine (nesting arena input).evalNode_succ ?_ ih id pos
    intro rid rule pos hrule hbody resolution survey hsettle
    obtain ⟨inner, hrun, rfl⟩ := surveyed_settle_eq_ok.1 hsettle
    intro key hkey
    rcases Survey.mem_asking.1 hkey with rfl | hkey
    · exact ⟨resolution, inner, ⟨rule, depth, hrule, hrun⟩, List.subset_cons_self _ _,
        Nat.lt_succ_self _⟩
    · obtain ⟨found, least, hleast, hsub, hlen⟩ := hbody resolution inner hrun key hkey
      exact ⟨found, least, hleast, fun k hk => List.mem_cons_of_mem _ (hsub hk),
        Nat.lt_succ_of_lt hlen⟩

/-- **The keys of a survey have smaller surveys** within it. -/
theorem Arena.Surveys.nested {key : Memo.Key} {resolution : Resolution}
    (h : arena.Surveys input key resolution survey) : Nested arena input survey := by
  obtain ⟨rule, depth, -, hbody⟩ := h
  exact (nesting arena input).resolve key.mode key.offset
    (fun a _ => nested_of_evalNode depth a key.offset) resolution survey hbody

/-- No rule asks for itself at the offset at which it is settled. -/
theorem Arena.Surveys.not_mem {key : Memo.Key} {resolution : Resolution}
    (h : arena.Surveys input key resolution survey) : key ∉ survey.all := by
  intro hkey
  obtain ⟨resolution', inner, hinner, -, hlt⟩ := h.nested key hkey
  obtain ⟨-, rfl⟩ := h.unique hinner
  exact Nat.lt_irrefl _ hlt

/-- The keys of the rules of an arena in one mode, from an offset on. -/
structure Memo.Key.From (arena : Arena) (input : Input) (mode : Mode) (pos : Nat)
    (key : Memo.Key) : Prop where
  rule_lt : key.rule < arena.rules.size
  mode_eq : key.mode = mode
  le_offset : pos ≤ key.offset
  offset_le : key.offset ≤ input.length

/-- Computations that ask only for keys from an offset on. -/
def askingFrom (arena : Arena) (input : Input) (mode : Mode) (pos : Nat) :
    Simulation Surveyed Surveyed :=
  surveysHave (fun survey => ∀ key ∈ survey.all, key.From arena input mode pos)
    (by simp [Survey.empty])
    fun hfirst hsecond key hkey => (Survey.mem_append.1 hkey).elim (hfirst key) (hsecond key)

/-- A sequence asks for keys from its offset on, as each of its parts does from where it begins. -/
theorem from_of_evalSequence {children : List NodeId} {start : Nat} (hpos : pos ≤ input.length)
    (heval : ∀ child ∈ children, ∀ pos outcome survey, pos ≤ input.length →
      surveyedNode arena input mode depth child pos = .ok (outcome, survey) →
        ∀ key ∈ survey.all, key.From arena input mode pos)
    (h : evalSequence (surveyedNode arena input mode depth) start children pos =
      .ok (outcome, survey)) : ∀ key ∈ survey.all, key.From arena input mode pos := by
  induction children generalizing pos survey with
  | nil =>
    cases h
    intro key hkey
    cases hkey
  | cons child rest ih =>
    obtain ⟨found, first, second, hone, h, rfl⟩ := surveyed_bind_eq_ok.1 h
    have hfirst := heval child List.mem_cons_self pos found first hpos hone
    obtain ⟨f', hrun⟩ := (evalNode_surveyed depth child pos pos found).2 ⟨first, hone⟩
    have hwithin := evalNode_within hpos hrun
    intro key hkey
    rcases Survey.mem_append.1 hkey with hkey | hkey
    · exact hfirst key hkey
    · cases found with
      | matched span =>
        obtain ⟨-, hle, hstop⟩ := hwithin
        have hrest := ih hstop (fun c hc => heval c (List.mem_cons_of_mem _ hc)) h key hkey
        exact ⟨hrest.rule_lt, hrest.mode_eq, Nat.le_trans hle hrest.le_offset, hrest.offset_le⟩
      | noMatch failure =>
        cases h
        cases hkey

/-- A rule asks for its own key, and for those that its alternatives ask for. -/
theorem from_of_settleRule {rid : RuleId} {resolution : Resolution} (hpos : pos ≤ input.length)
    (heval : ∀ alternative outcome survey,
      surveyedNode arena input mode depth alternative pos = .ok (outcome, survey) →
        ∀ key ∈ survey.all, key.From arena input mode pos)
    (h : settleRule arena mode (surveyedNode arena input mode depth) rid pos =
      .ok (resolution, survey)) : ∀ key ∈ survey.all, key.From arena input mode pos := by
  unfold settleRule at h
  split at h
  · cases h
  · rename_i rule hrule
    obtain ⟨inner, hbody, rfl⟩ := surveyed_settle_eq_ok.1 h
    have hasks : (askingFrom arena input mode pos).Rel
        (surveyedBody arena input mode depth rule pos)
        (surveyedBody arena input mode depth rule pos) :=
      (askingFrom arena input mode pos).resolve mode pos fun a _ => heval a
    intro key hkey
    rcases Survey.mem_asking.1 hkey with rfl | hkey
    · exact ⟨(Array.getElem?_eq_some_iff.1 hrule).1, rfl, Nat.le_refl pos, hpos⟩
    · exact hasks resolution inner hbody key hkey

/-- **The keys that an evaluation asks for** are of rules of the arena, in its mode, from its
offset on. -/
theorem from_of_evalNode (hpos : pos ≤ input.length)
    (h : surveyedNode arena input mode depth id pos = .ok (outcome, survey)) :
    ∀ key ∈ survey.all, key.From arena input mode pos := by
  induction depth generalizing id pos outcome survey with
  | zero => cases h
  | succ depth ih =>
    obtain ⟨found, first, second, hmatch, hnote, rfl⟩ := surveyed_bind_eq_ok.1 h
    intro key hkey
    rcases Survey.mem_append.1 hkey with hkey | hkey
    · unfold matchNode at hmatch
      split at hmatch
      · cases hmatch
      · cases hmatch
        cases hkey
      · exact from_of_evalSequence hpos (fun _ _ _ _ _ hpos h => ih hpos h) hmatch key hkey
      · obtain ⟨resolution, asked, last, hsettle, hout, rfl⟩ := surveyed_bind_eq_ok.1 hmatch
        cases hout
        rcases Survey.mem_append.1 hkey with hkey | hkey
        · exact from_of_settleRule hpos (fun _ _ _ h => ih hpos h) hsettle key hkey
        · cases hkey
    -- to take note of a failure nothing is asked for
    · cases found <;> (cases hnote; cases hkey)

end Packrat
