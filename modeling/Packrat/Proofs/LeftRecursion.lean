import Packrat.Proofs.Termination

/-!
# Left recursion never ends

On the empty text nothing is taken, so a sequence goes on to the parts behind its nullable ones at
the same offset, and a rule in lexer mode goes into every alternative. A rule that ends there does
so below all that lead to it, and a cycle of leading rules leaves no room for that.

* `eq_tooDeep_of_evalNode`: an evaluation that does not end runs into the limit.
* `matched_of_nullable`: **nullable nodes match the empty text**, where they end.
* `exists_body_of_leading`: **a node that ends has leading rules that end** below it.
* `neverEnds_of_isCycle`: **no rule of a cycle ever ends.**
-/

namespace Packrat

open Evaluation

variable {arena : Arena} {input : Input} {mode : Mode} {depth pos f f' : Nat} {id : NodeId}
  {outcome : Outcome}

theorem eq_tooDeep_of_evalSequence {children : List NodeId} {start : Nat} {e : Fault}
    (heval : ∀ child ∈ children, ∀ p f,
      (plainNode arena input mode depth child p).run f = .error e → e = .tooDeep)
    (h : (evalSequence (plainNode arena input mode depth) start children pos).run f = .error e) :
    e = .tooDeep := by
  induction children generalizing pos f with
  | nil => cases h
  | cons child rest ih =>
    rcases run_bind_eq_error.1 h with hone | ⟨first, t, -, hrest⟩
    · exact heval child List.mem_cons_self pos f hone
    · cases first with
      | matched span => exact ih (fun c hc => heval c (List.mem_cons_of_mem _ hc)) hrest
      | noMatch failure => cases hrest

/-- **The limit is all that stops an evaluation** in a well-formed arena. -/
theorem eq_tooDeep_of_evalNode (hwf : arena.WellFormed) {e : Fault}
    (hid : id.index < arena.nodes.size)
    (h : (plainNode arena input mode depth id pos).run f = .error e) : e = .tooDeep := by
  induction depth generalizing id pos f with
  | zero =>
    cases h
    rfl
  | succ depth ih =>
    rcases run_bind_eq_error.1 h with hmatch | ⟨found, t, -, hnote⟩
    · obtain ⟨node, hnode⟩ := Arena.exists_node hid
      unfold matchNode at hmatch
      simp only [hnode] at hmatch
      cases node with
      | primitive p => cases hmatch
      | sequence children =>
        refine eq_tooDeep_of_evalSequence (fun child hc p f => ih ?_) hmatch
        exact Nat.lt_trans (hwf.child_lt id.index children hnode child hc) hid
      | rule rid =>
        obtain ⟨rule, hrule⟩ := hwf.exists_rule hnode
        rcases run_bind_eq_error.1 hmatch with hsettle | ⟨resolution, t, -, hout⟩
        · simp only [settleRule, hrule] at hsettle
          obtain ⟨a, ha, t, herror⟩ :=
            exists_error_of_run_resolve (settle_run_eq_error.1 hsettle)
          exact ih (hwf.alternative_lt rid rule hrule a ha) herror
        · cases hout
    -- a failure can always be noted
    · rw [noteFailure_run] at hnote
      cases hnote

/-- A sequence goes on behind parts that match the empty text. -/
theorem evalSequence_append_run {start : Nat} {front back : List NodeId}
    (hfront : ∀ child ∈ front, ∀ f outcome f',
      (plainNode arena (.ofString "") mode depth child 0).run f = .ok (outcome, f') →
        outcome = .ofBounds 0 0)
    (h : (evalSequence (plainNode arena (.ofString "") mode depth) start
      (front ++ back) 0).run f = .ok (outcome, f')) :
    ∃ t, (evalSequence (plainNode arena (.ofString "") mode depth) start back 0).run t =
      .ok (outcome, f') := by
  induction front generalizing f with
  | nil => exact ⟨f, h⟩
  | cons child front ih =>
    obtain ⟨first, t, hone, hrest⟩ := evalSequence_cons_run h
    have hfirst := hfront child List.mem_cons_self f first t hone
    rcases hrest with ⟨span, rfl, hrest⟩ | ⟨failure, rfl, -, -⟩
    · cases hfirst
      exact ih (fun c hc => hfront c (List.mem_cons_of_mem _ hc)) hrest
    · cases hfirst

theorem attempt_of_isNullable {p : Primitive} (h : p.isNullable = true) :
    p.attempt (.ofString "") 0 = .ofBounds 0 0 := by
  cases p with
  | literal text =>
    have htext : text = #[] := by simpa [Primitive.isNullable] using h
    rw [htext]
    decide +kernel
  | eof => rfl
  | any => cases h
  | range chars => cases h
  | set chars => cases h

/-- **Nullable nodes match the empty text** where they end. A rule that fails has tried all of its
alternatives, so also one that is nullable. -/
theorem matched_of_nullable {known : Nullability} (hfixed : Nullability.Fixed arena known)
    (hnull : known.node id = true)
    (h : (plainNode arena (.ofString "") mode depth id 0).run f = .ok (outcome, f')) :
    outcome = .ofBounds 0 0 := by
  induction depth generalizing id f outcome f' with
  | zero => cases h
  | succ depth ih =>
    have hwithin := evalNode_within (Nat.zero_le _) h
    cases outcome with
    | matched span =>
      obtain ⟨hstart, -, hstop⟩ := hwithin
      obtain ⟨start, stop⟩ := span
      obtain rfl : start = 0 := hstart
      obtain rfl : stop = 0 := Nat.le_zero.1 hstop
      rfl
    | noMatch failure =>
      exfalso
      obtain ⟨inner, hrun, -⟩ := evalNode_run_eq_ok.1 h
      generalize hout : Outcome.noMatch failure = outcome at hrun
      cases hrun with
      | primitive p hnode =>
        rw [attempt_of_isNullable ((hfixed.node id _ hnode).1 hnull)] at hout
        cases hout
      | sequence children hnode _ _ hrun =>
        have hall := List.all_eq_true.1 ((hfixed.node id _ hnode).1 hnull)
        -- no part stops the sequence, so it comes to its end
        rw [← List.append_nil children] at hrun
        obtain ⟨t, hend⟩ := evalSequence_append_run (fun child hc _ _ _ => ih (hall child hc)) hrun
        obtain ⟨hend, -⟩ := run_pure_eq_ok.1 hend
        rw [← hout] at hend
        cases hend
      | rule rid rule hnode hrule resolution g hrun =>
        -- a nullable alternative is tried and matches, so the rule cannot fail
        have hrid : known.rule rid = true := (hfixed.node id _ hnode).1 hnull
        obtain ⟨a, ha, hnull⟩ := List.any_eq_true.1 ((hfixed.rule rid rule hrule).1 hrid)
        obtain ⟨outcomes, htried, rfl⟩ := run_resolve_eq_ok.1 hrun
        cases hresolution : Resolution.ofOutcomes 0 none ⟨0⟩ outcomes with
        | chosen choice =>
          rw [hresolution] at hout
          cases hout
        | noMatch deepest =>
          obtain ⟨-, -, -, hfailed⟩ := ofOutcomes_eq_noMatch hresolution
          have hnone : ∀ outcome ∈ outcomes, outcome.span? = none := fun outcome hmem => by
            obtain ⟨other, rfl, -⟩ := hfailed outcome hmem
            rfl
          obtain ⟨t, found, t', hone, hmem⟩ := exists_run_of_no_match htried hnone a ha
          rw [ih hnull hone] at hmem
          cases hnone _ hmem

/-- The evaluation of a node in lexer mode, from the beginning of the empty text, with a limit on
its depth. -/
abbrev emptyRun (arena : Arena) (depth : Nat) (id : NodeId) : Attempt Outcome :=
  plainNode arena (.ofString "") .lexer depth id 0

/-- A rule is settled on the empty text below so many nodes. -/
def SettledBelow (arena : Arena) (depth : Nat) (id : RuleId) : Prop :=
  ∃ rule r, arena.rule? id = some rule ∧
    (plainBody arena (.ofString "") .lexer depth rule 0).run 0 = .ok r

/-- **A node that ends has leading rules that end below it.** -/
theorem settledBelow_of_leading (hwf : arena.WellFormed) {w : RuleId}
    (hw : w ∈ arena.leading arena.nullability id.index)
    (h : (emptyRun arena depth id).run f = .ok (outcome, f')) :
    ∃ lower < depth, SettledBelow arena lower w := by
  induction depth generalizing id f outcome f' with
  | zero => cases h
  | succ depth ih =>
    obtain ⟨inner, hrun, -⟩ := evalNode_run_eq_ok.1 h
    cases hrun with
    | primitive p hnode =>
      rw [Arena.leading_primitive hnode] at hw
      cases hw
    | sequence children hnode _ _ hrun =>
      obtain ⟨child, hc, hw⟩ := (Arena.leading_sequence hwf hnode).1 hw
      obtain ⟨front, back, rfl, hfront⟩ := exists_of_mem_opening hc
      -- the nullable parts ahead of the child match, so the child is run, and it ends
      obtain ⟨t, hrest⟩ := evalSequence_append_run
        (fun c hc _ _ _ => matched_of_nullable arena.nullability_fixed (hfront c hc)) hrun
      obtain ⟨first, t', hone, -⟩ := evalSequence_cons_run hrest
      obtain ⟨lower, hlt, hsettled⟩ := ih hw hone
      exact ⟨lower, Nat.lt_succ_of_lt hlt, hsettled⟩
    | rule rid rule hnode hrule resolution g hrun =>
      rw [Arena.leading_rule hnode, List.mem_singleton] at hw
      rw [hw]
      exact ⟨depth, Nat.lt_succ_self depth, rule, _, hrule, hrun⟩

/-- A rule that is settled has leading rules that are settled below it. -/
theorem SettledBelow.edge (hwf : arena.WellFormed) {v w : RuleId}
    (h : SettledBelow arena depth v) (hedge : arena.leadsTo.Edge v w) :
    ∃ lower < depth, SettledBelow arena lower w := by
  obtain ⟨rule, ⟨resolution, f'⟩, hrule, hrun⟩ := h
  obtain ⟨other, hother, alternative, ha, hw⟩ := (Arena.leadsTo_edge hwf).1 hedge
  rw [hrule] at hother
  cases hother
  obtain ⟨outcomes, htried, -⟩ := run_resolve_eq_ok.1 hrun
  obtain ⟨t, outcome, t', hone, -⟩ := exists_run_of_run_triedOutcomes htried alternative ha
  exact settledBelow_of_leading hwf hw hone

/-- No rule of a cycle is settled, whatever the limit. -/
theorem not_settledBelow_of_isCycle (hwf : arena.WellFormed) {cycle : List RuleId}
    (hcycle : arena.leadsTo.IsCycle cycle) {v : RuleId} (hv : v ∈ cycle) (depth : Nat) :
    ¬ SettledBelow arena depth v := by
  -- round the cycle the limits go down for ever
  induction depth using Nat.strong_induction_on generalizing v with
  | _ depth ih =>
    intro hsettled
    obtain ⟨w, hw, hedge⟩ := hcycle.exists_edge hv
    obtain ⟨lower, hlt, hbelow⟩ := hsettled.edge hwf hedge
    exact ih lower hlt hw hbelow

/-- The plain evaluation of a node in lexer mode, from the beginning of the empty text, runs into
any limit on its depth. -/
def NeverEnds (arena : Arena) (id : NodeId) : Prop :=
  ∀ depth, (evalNode arena (.ofString "") .lexer depth id 0 : Attempt Outcome).run 0 =
    .error .tooDeep

/-- **No rule of a cycle ever ends.** -/
theorem neverEnds_of_isCycle (hwf : arena.WellFormed) {cycle : List RuleId}
    (hcycle : arena.leadsTo.IsCycle cycle) {v : RuleId} (hv : v ∈ cycle) {rule : Rule}
    (hrule : arena.rule? v = some rule) : NeverEnds arena rule.node := by
  intro depth
  cases h : (plainNode arena (.ofString "") .lexer depth rule.node 0).run 0 with
  | error e =>
    rw [eq_tooDeep_of_evalNode hwf (hwf.node_lt hrule) h]
  | ok r =>
    exfalso
    obtain ⟨outcome, f'⟩ := r
    -- the node of a rule leads to the rule itself
    have hlead : v ∈ arena.leading arena.nullability rule.node.index := by
      rw [Arena.leading_rule (hwf.rule_node v rule hrule)]
      exact List.mem_singleton.2 rfl
    obtain ⟨lower, -, hsettled⟩ := settledBelow_of_leading hwf hlead h
    exact not_settledBelow_of_isCycle hwf hcycle hv lower hsettled

/-- Where leading rules can be ranked every node ends. -/
theorem not_neverEnds_of_ranked (hwf : arena.WellFormed) {rank : Nat → Nat}
    (hrank : arena.leadsTo.Ranked rank) (hid : id.index < arena.nodes.size) :
    ¬ NeverEnds arena id := by
  intro hnever
  obtain ⟨r, hrun⟩ : ∃ r, (emptyRun arena (arena.depthLimit 0) id).run 0 = .ok r :=
    exists_run_evalNode hwf hrank 0 hid (Nat.zero_le _)
      (fun w hw => rank_lt_of_mem_leading hwf hrank hw) (depthBelow_add_lt_depthLimit hid)
  rw [hnever] at hrun
  cases hrun

end Packrat
