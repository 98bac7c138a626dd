import Packrat.Evaluation.Trace
import Packrat.Proofs.Sessions
import Mathlib.Order.Bounds.Basic

/-!
# Failures are reported where they got farthest

The farthest failure is kept in one cell. While a node is matched the cell may rise to the offset
of a rule at which nothing failed, but not behind the end of the match (`Account`); and a failure
behind that offset makes good for it (`Account.absorb`).

* `evalNode_traced`: **how the cell moves**, beside the attempts that the evaluation makes.
* `Built.isGreatest_farthest`: **the reported index** is the greatest offset of a failed attempt.
-/

namespace Packrat

open Evaluation

/-- One of the attempts was made at `offset`, and failed. -/
def FailedIn (attempts : List Tried) (offset : Nat) : Prop :=
  ∃ tried ∈ attempts, tried.FailedAt offset

theorem failedIn_append {attempts others : List Tried} {offset : Nat} :
    FailedIn (attempts ++ others) offset ↔ FailedIn attempts offset ∨ FailedIn others offset := by
  simp only [FailedIn, List.mem_append, or_and_right, exists_or]

/-- The computation comes to `a` and makes the attempts, whatever was tried before. -/
def Makes {α : Type} (x : Traced α) (a : α) (attempts : List Tried) : Prop :=
  ∀ trace, x.run trace = .ok (a, trace ++ attempts)

theorem Makes.pure {α : Type} (a : α) : Makes (pure a) a [] := by
  intro trace
  rw [List.append_nil]
  rfl

theorem Makes.bind {α β : Type} {x : Traced α} {g : α → Traced β} {a : α} {b : β}
    {attempts others : List Tried} (hx : Makes x a attempts) (hg : Makes (g a) b others) :
    Makes (x >>= g) b (attempts ++ others) := by
  intro trace
  rw [← List.append_assoc]
  exact run_bind_eq_ok.2 ⟨a, _, hx trace, hg _⟩

/-- **How the farthest failure moves** from `f` to `f'` while attempts are made: it counts all that
fail, and it rises behind `bound` only to one of them. -/
structure Account (f bound : Nat) (attempts : List Tried) (f' : Nat) : Prop where
  le : f ≤ f'
  failed_le : ∀ offset, FailedIn attempts offset → offset ≤ f'
  top : f' ≤ max f bound ∨ FailedIn attempts f'

namespace Account

variable {f g f' bound bound' pos offset : Nat} {attempts others : List Tried}

theorem refl (f bound : Nat) : Account f bound [] f := by
  refine ⟨Nat.le_refl f, ?_, Or.inl (Nat.le_max_left f bound)⟩
  rintro offset ⟨tried, hmem, -⟩
  cases hmem

theorem mono (h : Account f bound attempts f') (hle : bound ≤ bound') :
    Account f bound' attempts f' := by
  refine ⟨h.le, h.failed_le, ?_⟩
  rcases h.top with htop | htop
  · exact Or.inl (by omega)
  · exact Or.inr htop

theorem trans (h : Account f bound attempts g) (h' : Account g bound others f') :
    Account f bound (attempts ++ others) f' := by
  have hle := h.le
  have hle' := h'.le
  refine ⟨by omega, fun offset hfailed => ?_, ?_⟩
  · rcases failedIn_append.1 hfailed with hfailed | hfailed
    · exact Nat.le_trans (h.failed_le offset hfailed) hle'
    · exact h'.failed_le offset hfailed
  · rw [failedIn_append]
    rcases h'.top with htop' | htop'
    -- above the bound the second part left the cell where the first had it
    · by_cases hbound : f' ≤ bound
      · exact Or.inl (by omega)
      · obtain rfl : f' = g := by omega
        rcases h.top with htop | htop
        · exact Or.inl htop
        · exact Or.inr (Or.inl htop)
    · exact Or.inr (Or.inr htop')

/-- **A failure behind the bound makes good** for a rise up to the bound. -/
theorem absorb (h : Account f bound attempts f') (hfailed : FailedIn attempts offset)
    (hle : bound ≤ offset) : Account f 0 attempts f' := by
  refine ⟨h.le, h.failed_le, ?_⟩
  rcases h.top with htop | htop
  · have hoffset := h.failed_le offset hfailed
    by_cases hrise : f' ≤ f
    · exact Or.inl (by omega)
    · obtain rfl : f' = offset := by omega
      exact Or.inr hfailed
  · exact Or.inr htop

/-- The failures on the way to settling a rule at `pos`, counted from there on, count with those
before it. -/
theorem settle (h : Account pos bound attempts g) (hpos : pos ≤ bound) (f : Nat) :
    Account f bound attempts (max f g) := by
  refine ⟨Nat.le_max_left f g, fun offset hfailed => ?_, ?_⟩
  · have := h.failed_le offset hfailed
    omega
  · rcases h.top with htop | htop
    · exact Or.inl (by omega)
    · by_cases hle : f ≤ g
      · exact Or.inr (by rw [Nat.max_eq_right hle]; exact htop)
      · exact Or.inl (by omega)

end Account

/-- What is known of the attempts that led to an outcome: up to the end of a match the farthest
failure may have risen for nothing; a failure is one of an attempt that got at least as far. -/
def Accounted (f : Nat) (attempts : List Tried) (f' : Nat) : Outcome → Prop
  | .matched span => Account f span.stop attempts f'
  | .noMatch failure => Account f 0 attempts f' ∧
      ∃ offset, FailedIn attempts offset ∧ failure.index ≤ offset

variable {arena : Arena} {input : Input} {mode : Mode} {depth pos f f' : Nat} {id : NodeId}
  {outcome : Outcome}

/-- Taking note of a failure that is accounted for changes nothing. -/
theorem Accounted.noted {attempts : List Tried} (h : Accounted f attempts f' outcome) :
    noted outcome f' = f' := by
  cases outcome with
  | matched span => rfl
  | noMatch failure =>
    obtain ⟨haccount, offset, hfailed, hle⟩ := h
    have := haccount.failed_le offset hfailed
    exact Nat.max_eq_left (by omega)

/-- A primitive makes one attempt. -/
theorem accounted_attempt (p : Primitive) (hpos : pos ≤ input.length) (f : Nat) :
    Accounted f [⟨pos, p.attempt input pos⟩] (noted (p.attempt input pos) f)
      (p.attempt input pos) := by
  cases houtcome : p.attempt input pos with
  | matched span =>
    refine ⟨Nat.le_refl f, ?_, Or.inl (Nat.le_max_left _ _)⟩
    rintro offset ⟨tried, hmem, -, hnone⟩
    rw [List.mem_singleton.1 hmem] at hnone
    cases hnone
  | noMatch failure =>
    have hindex : failure.index = pos := by
      unfold Primitive.attempt at houtcome
      split at houtcome
      · cases houtcome
      · cases houtcome
        exact Nat.min_eq_left hpos
    have hfailed : FailedIn [⟨pos, .noMatch failure⟩] pos :=
      ⟨_, List.mem_singleton.2 rfl, rfl, rfl⟩
    refine ⟨⟨Nat.le_max_left _ _, ?_, ?_⟩, pos, hfailed, Nat.le_of_eq hindex⟩
    · rintro offset ⟨tried, hmem, hoffset, -⟩
      rw [List.mem_singleton.1 hmem] at hoffset
      have hoffset : pos = offset := hoffset
      show offset ≤ max f failure.index
      omega
    · show max f failure.index ≤ max f 0 ∨ FailedIn _ (max f failure.index)
      by_cases hle : pos ≤ f
      · exact Or.inl (by omega)
      · rw [hindex, Nat.max_eq_right (by omega)]
        exact Or.inr hfailed

/-- A sequence makes the attempts of its parts, as far as it gets. Where a part fails it does so
behind the matches before it. -/
theorem evalSequence_traced {children : List NodeId} {start : Nat} (hpos : pos ≤ input.length)
    (heval : ∀ child ∈ children, ∀ pos f outcome f', pos ≤ input.length →
      (plainNode arena input mode depth child pos).run f = .ok (outcome, f') →
        ∃ attempts, Makes (evalNode arena input mode depth child pos) outcome attempts ∧
          Accounted f attempts f' outcome)
    (h : (evalSequence (plainNode arena input mode depth) start children pos).run f =
      .ok (outcome, f')) :
    ∃ attempts, Makes (evalSequence (evalNode arena input mode depth) start children pos) outcome
      attempts ∧ Accounted f attempts f' outcome := by
  induction children generalizing pos f with
  | nil =>
    obtain ⟨rfl, rfl⟩ := run_pure_eq_ok.1 h
    exact ⟨[], Makes.pure _, Account.refl f' pos⟩
  | cons child rest ih =>
    obtain ⟨first, g, hone, hrest⟩ := evalSequence_cons_run h
    obtain ⟨attempts, hmakes, haccounted⟩ := heval child List.mem_cons_self pos f first g hpos hone
    rcases hrest with ⟨span, rfl, hrest⟩ | ⟨failure, rfl, rfl, rfl⟩
    · obtain ⟨-, -, hstop⟩ := evalNode_within hpos hone
      have hwithin := evalSequence_within hstop (fun _ _ _ _ _ _ => evalNode_within) hrest
      obtain ⟨others, hmakes', haccounted'⟩ :=
        ih hstop (fun c hc => heval c (List.mem_cons_of_mem _ hc)) hrest
      refine ⟨attempts ++ others, hmakes.bind hmakes', ?_⟩
      cases outcome with
      | matched last => exact (haccounted.mono hwithin.2.1).trans haccounted'
      | noMatch failure =>
        -- the failure is behind the match, and makes good for what rose up to its end
        obtain ⟨haccount, offset, hfailed, hle⟩ := haccounted'
        have hfailed : FailedIn (attempts ++ others) offset := failedIn_append.2 (Or.inr hfailed)
        have htrans := Account.trans haccounted (haccount.mono (Nat.zero_le span.stop))
        exact ⟨htrans.absorb hfailed (Nat.le_trans hwithin.1 hle), offset, hfailed, hle⟩
    · refine ⟨attempts ++ [], hmakes.bind (Makes.pure _), ?_⟩
      rw [List.append_nil]
      exact haccounted

/-- Alternatives that are tried make their attempts. The farthest failure may have risen for
nothing up to the end of the longest match. -/
theorem triedOutcomes_traced {alternatives : List NodeId} {outcomes : List Outcome}
    (heval : ∀ a ∈ alternatives, ∀ f outcome f',
      (plainNode arena input mode depth a pos).run f = .ok (outcome, f') →
        ∃ attempts, Makes (evalNode arena input mode depth a pos) outcome attempts ∧
          Accounted f attempts f' outcome)
    (h : (triedOutcomes mode (plainNode arena input mode depth · pos) alternatives).run f =
      .ok (outcomes, f')) :
    ∃ attempts, Makes (triedOutcomes mode (evalNode arena input mode depth · pos) alternatives)
        outcomes attempts ∧
      (∀ bound, (∀ span, Outcome.matched span ∈ outcomes → span.stop ≤ bound) →
        Account f bound attempts f') ∧
      ∀ failure, Outcome.noMatch failure ∈ outcomes →
        ∃ offset, FailedIn attempts offset ∧ failure.index ≤ offset := by
  induction alternatives generalizing f outcomes with
  | nil =>
    obtain ⟨rfl, rfl⟩ := run_pure_eq_ok.1 h
    exact ⟨[], Makes.pure _, fun bound _ => Account.refl f' bound, by simp⟩
  | cons alternative rest ih =>
    -- the first alternative is run in either case; its match ends no later than the longest one
    obtain ⟨outcome, g, hone, hrest⟩ := run_triedOutcomes_cons.1 h
    obtain ⟨attempts, hmakes, haccounted⟩ := heval alternative List.mem_cons_self f outcome g hone
    have hbound : ∀ bound, (∀ span, outcome = .matched span → span.stop ≤ bound) →
        Account f bound attempts g := by
      intro bound hbound
      cases outcome with
      | matched span => exact haccounted.mono (hbound span rfl)
      | noMatch failure => exact haccounted.1.mono (Nat.zero_le bound)
    rcases hrest with ⟨rfl, hsome, rfl, rfl⟩ | ⟨hgo, others, rfl, hrest⟩
    · cases outcome with
      | noMatch failure => cases hsome
      | matched span =>
        refine ⟨attempts ++ [], hmakes.bind (Makes.pure _), fun bound hstops => ?_, by simp⟩
        rw [List.append_nil]
        exact hbound bound fun other hother => hstops other (hother ▸ List.mem_cons_self)
    · obtain ⟨later, hmakes', haccount, hfailures⟩ :=
        ih (fun a ha => heval a (List.mem_cons_of_mem _ ha)) hrest
      refine ⟨attempts ++ later, ?_, fun bound hstops => ?_, fun failure hmem => ?_⟩
      · intro trace
        refine run_triedOutcomes_cons.2 ⟨outcome, _, hmakes trace, Or.inr ⟨hgo, others, rfl, ?_⟩⟩
        rw [← List.append_assoc]
        exact hmakes' _
      · refine (hbound bound ?_).trans (haccount bound fun span hmem => ?_)
        · rintro span rfl
          exact hstops span List.mem_cons_self
        · exact hstops span (List.mem_cons_of_mem _ hmem)
      · rcases List.mem_cons.1 hmem with rfl | hmem
        · obtain ⟨offset, hfailed, hle⟩ := haccounted.2
          exact ⟨offset, failedIn_append.2 (Or.inl hfailed), hle⟩
        · obtain ⟨offset, hfailed, hle⟩ := hfailures failure hmem
          exact ⟨offset, failedIn_append.2 (Or.inr hfailed), hle⟩

/-- A rule makes the attempts of the alternatives that it tries. What rose for nothing from its
offset on is made good for by a failure, or covered by the longest match. -/
theorem resolve_traced {rule : Rule} {resolution : Resolution} {inner : Nat}
    (hpos : pos ≤ input.length) (hne : rule.alternatives ≠ [])
    (heval : ∀ a ∈ rule.alternatives, ∀ f outcome f',
      (plainNode arena input mode depth a pos).run f = .ok (outcome, f') →
        ∃ attempts, Makes (evalNode arena input mode depth a pos) outcome attempts ∧
          Accounted f attempts f' outcome)
    (h : (plainBody arena input mode depth rule pos).run pos = .ok (resolution, inner)) (f : Nat) :
    ∃ attempts,
      Makes (resolve mode rule.alternatives pos (evalNode arena input mode depth · pos)) resolution
        attempts ∧ Accounted f attempts (max f inner) resolution.toOutcome := by
  obtain ⟨outcomes, htried, rfl⟩ := run_resolve_eq_ok.1 h
  obtain ⟨attempts, hmakes, haccount, hfailures⟩ := triedOutcomes_traced heval htried
  have hwithin := forall_of_run_triedOutcomes (P := Outcome.Within input pos pos)
    (fun _ _ _ _ _ hrun => evalNode_within hpos hrun) htried
  refine ⟨attempts, fun trace => run_resolve_eq_ok.2 ⟨outcomes, hmakes trace, rfl⟩, ?_⟩
  cases hresolution : Resolution.ofOutcomes 0 none ⟨pos⟩ outcomes with
  | chosen choice =>
    obtain ⟨hbest | ⟨i, hi, -⟩, -, hlongest⟩ := ofOutcomes_eq_chosen hresolution
    · cases hbest
    · have hchosen := hwithin _ (List.mem_of_getElem? hi)
      exact (haccount choice.span.stop hlongest).settle hchosen.2.1 f
  | noMatch failure =>
    obtain ⟨-, hfrom, hle, hall⟩ := ofOutcomes_eq_noMatch hresolution
    -- the failure is one of an alternative, or it is at `pos` and an alternative failed from there
    obtain ⟨offset, hfailed, hoffset⟩ :
        ∃ offset, FailedIn attempts offset ∧ failure.index ≤ offset := by
      rcases hfrom with rfl | hmem
      · have hsome := ne_nil_of_run_triedOutcomes hne htried
        obtain ⟨outcome, hmem⟩ := List.exists_mem_of_ne_nil outcomes hsome
        obtain ⟨other, rfl, -⟩ := hall outcome hmem
        obtain ⟨offset, hfailed, hoffset⟩ := hfailures other hmem
        exact ⟨offset, hfailed, Nat.le_trans (hwithin _ hmem).1 hoffset⟩
      · exact hfailures failure hmem
    have hnone : ∀ span, Outcome.matched span ∈ outcomes → span.stop ≤ pos := by
      intro span hmem
      obtain ⟨other, hother, -⟩ := hall _ hmem
      cases hother
    have hsettled := (haccount pos hnone).settle (Nat.le_refl pos) f
    exact ⟨hsettled.absorb hfailed (Nat.le_trans hle hoffset), offset, hfailed, hoffset⟩

theorem makes_noteFailure (outcome : Outcome) : Makes (noteFailure outcome) outcome [] := by
  cases outcome with
  | matched span => exact Makes.pure _
  | noMatch failure => exact (Makes.pure _).bind (Makes.pure _)

/-- **How the farthest failure moves** in a plain evaluation of a node, beside the attempts that it
makes. -/
theorem evalNode_traced (hwf : arena.WellFormed) (hpos : pos ≤ input.length)
    (h : (plainNode arena input mode depth id pos).run f = .ok (outcome, f')) :
    ∃ attempts, Makes (evalNode arena input mode depth id pos) outcome attempts ∧
      Accounted f attempts f' outcome := by
  induction depth generalizing id pos f outcome f' with
  | zero => cases h
  | succ depth ih =>
    obtain ⟨inner, hrun, rfl⟩ := evalNode_run_eq_ok.1 h
    -- taking note of the outcome makes no attempt
    have hnote : ∀ {attempts : List Tried},
        Makes (matchNode arena input mode (evalNode arena input mode depth) id pos) outcome
          attempts → Makes (evalNode arena input mode (depth + 1) id pos) outcome attempts := by
      intro attempts hmakes
      have := hmakes.bind (makes_noteFailure outcome)
      rw [List.append_nil] at this
      exact this
    cases hrun with
    | primitive p hnode =>
      refine ⟨[⟨pos, p.attempt input pos⟩], hnote fun trace => ?_, accounted_attempt p hpos f⟩
      simp only [matchNode, hnode]
      rfl
    | sequence children hnode _ _ hrun =>
      obtain ⟨attempts, hmakes, haccounted⟩ :=
        evalSequence_traced hpos (fun child _ pos f outcome f' hpos h => ih hpos h) hrun
      refine ⟨attempts, hnote fun trace => ?_, ?_⟩
      · simp only [matchNode, hnode]
        exact hmakes trace
      · rw [haccounted.noted]
        exact haccounted
    | rule rid rule hnode hrule resolution g hrun =>
      obtain ⟨attempts, hmakes, haccounted⟩ := resolve_traced hpos
        (hwf.alternatives_ne rid rule hrule) (fun a _ f outcome f' h => ih hpos h) hrun f
      refine ⟨attempts, hnote fun trace => ?_, ?_⟩
      · simp only [matchNode, hnode, settleRule, hrule]
        exact run_bind_eq_ok.2 ⟨resolution, _, hmakes trace, rfl⟩
      · rw [haccounted.noted]
        exact haccounted

/-- `index` is the farthest offset of a failed attempt, of all attempts that primitives make in
the plain evaluation of a node, which fails. -/
def FarthestFailure (arena : Arena) (input : Input) (mode : Mode) (id : NodeId) (start : Nat)
    (index : Nat) : Prop :=
  ∃ failure attempts,
    (Evaluation.node arena input mode id start : Traced Outcome).run [] =
      .ok (.noMatch failure, attempts) ∧
    IsGreatest {offset | ∃ tried ∈ attempts, tried.FailedAt offset} index

/-- A failure that is reported is the farthest one. -/
theorem farthestFailure_of_evaluate {grammar : Grammar} {session next : Session} {start : Nat}
    {failure : NoMatch} (hs : session.Serves grammar input) (hbuilt : grammar.Built)
    (hid : id.index < grammar.arena.nodes.size) (hstart : start ≤ input.length)
    (h : session.evaluate id start mode = .ok (.noMatch failure, next)) :
    FarthestFailure grammar.arena input mode id start failure.index := by
  obtain ⟨reported, _, heval, -, hplain⟩ := hs.evaluate hbuilt hid start mode
  rw [h] at heval
  cases heval
  obtain ⟨outcome, farthest, hrun, hreport⟩ := Session.evaluate_plain hbuilt hid hstart mode
  rw [hplain] at hreport
  cases outcome with
  | matched span => cases hreport
  | noMatch inner =>
    obtain ⟨attempts, hmakes, haccount, offset, hfailed, hle⟩ :=
      evalNode_traced hbuilt.wellFormed hstart hrun
    have hwithin := evalNode_within hstart hrun
    have hoffset := haccount.failed_le offset hfailed
    have hindex : failure.index = farthest := by
      have : failure = inner.deeper ⟨farthest⟩ := by
        cases hreport
        rfl
      rw [this, NoMatch.index_deeper]
      exact Nat.max_eq_right (Nat.le_trans hle hoffset)
    refine ⟨inner, attempts, hmakes [], ?_, fun other hother => ?_⟩
    · rw [hindex]
      -- the cell began at `start`, which is not behind the failed attempt
      rcases haccount.top with htop | htop
      · obtain rfl : farthest = offset := by
          have := hwithin.1
          omega
        exact hfailed
      · exact htop
    · rw [hindex]
      exact haccount.failed_le other hother

section Calls

variable {grammar : Grammar} {session next : Session} {start index : Nat}
  (hs : session.Serves grammar input) (hbuilt : grammar.Built) (hstart : start ≤ input.length)
include hs hbuilt hstart

theorem farthestFailure_of_parse
    (h : session.parse start mode = .ok (.noMatchAt index, next)) :
    FarthestFailure grammar.arena input mode grammar.root start index := by
  unfold Session.parse at h
  rw [hs.root_eq] at h
  exact farthestFailure_of_evaluate hs hbuilt hbuilt.root_lt hstart h

theorem farthestFailure_of_parseRule {name : String}
    (h : session.parseRule name start mode = .ok (.noMatchAt index, next)) :
    ∃ id, grammar.ruleNode? name = some id ∧
      FarthestFailure grammar.arena input mode id start index := by
  unfold Session.parseRule at h
  rw [Session.ruleNode?_congr hs.arena_eq] at h
  cases hname : grammar.ruleNode? name with
  | none =>
    rw [hname] at h
    cases h
  | some id =>
    rw [hname] at h
    exact ⟨id, rfl, farthestFailure_of_evaluate hs hbuilt (hbuilt.ruleNode?_lt hname) hstart h⟩

end Calls

/-- **The index of a failure is the farthest one.** Where a match of the root or of a rule fails,
from an offset of the text and in either mode, with a table or without, on its own or in a session
after any calls, a primitive failed in the plain evaluation, and the index that is reported is the
greatest offset at which one did. -/
theorem Grammar.Built.isGreatest_farthest {grammar : Grammar} (h : grammar.Built) {text : String}
    {start : Nat} (hstart : start ≤ text.length) (mode : Mode) (calls : List Session.Call) :
    (∀ index, grammar.parse text start mode = .ok (.noMatchAt index) →
      FarthestFailure grammar.arena (.ofString text) mode grammar.root start index) ∧
      (∀ name index, grammar.parseRule name text start mode = .ok (.noMatchAt index) →
        ∃ id, grammar.ruleNode? name = some id ∧
          FarthestFailure grammar.arena (.ofString text) mode id start index) ∧
      (∀ index next,
        ((grammar.session text).calls calls).2.parse start mode = .ok (.noMatchAt index, next) →
          FarthestFailure grammar.arena (.ofString text) mode grammar.root start index) ∧
      ∀ name index next,
        ((grammar.session text).calls calls).2.parseRule name start mode =
            .ok (.noMatchAt index, next) →
          ∃ id, grammar.ruleNode? name = some id ∧
            FarthestFailure grammar.arena (.ofString text) mode id start index := by
  rw [← Input.length_ofString] at hstart
  have hfresh := grammar.session_serves text
  have hserves := (hfresh.calls h calls).2
  have hmap : ∀ {result : Except Error (Outcome × Session)} {outcome : Outcome},
      result.map Prod.fst = .ok outcome → ∃ next, result = .ok (outcome, next) := by
    rintro (e | ⟨found, next⟩) outcome hresult
    · cases hresult
    · cases hresult
      exact ⟨next, rfl⟩
  refine ⟨fun index hparse => ?_, fun name index hparse => ?_, fun index next hparse => ?_,
    fun name index next hparse => ?_⟩
  · obtain ⟨next, hnext⟩ := hmap hparse
    exact farthestFailure_of_parse hfresh h hstart hnext
  · obtain ⟨next, hnext⟩ := hmap hparse
    exact farthestFailure_of_parseRule hfresh h hstart hnext
  · exact farthestFailure_of_parse hserves h hstart hparse
  · exact farthestFailure_of_parseRule hserves h hstart hparse

/-- The text `ab` fails at its second character, also for the rule that had matched the first. -/
theorem Grammar.onlyAs_isGreatest_farthest :
    Grammar.onlyAs.Built ∧ 0 ≤ "ab".length ∧
      Grammar.onlyAs.parse "ab" 0 .parser = .ok (.noMatchAt 1) ∧
      FarthestFailure Grammar.onlyAs.arena (.ofString "ab") .parser Grammar.onlyAs.root 0 1 := by
  have hparse : Grammar.onlyAs.parse "ab" 0 .parser = .ok (.noMatchAt 1) := by decide +kernel
  have hstart : 0 ≤ "ab".length := Nat.zero_le _
  exact ⟨Grammar.onlyAs_built, hstart, hparse,
    (Grammar.onlyAs_built.isGreatest_farthest hstart .parser []).1 1 hparse⟩

end Packrat
