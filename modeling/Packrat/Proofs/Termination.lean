import Packrat.Proofs.Built
import Packrat.Proofs.LeadingRules
import Packrat.Proofs.PlainRun

/-!
# Plain evaluations end

An evaluation goes down from a node to one behind it in the text, or else to one whose leading
rules rank lower, or else to one at a lower place. Each of the three can happen only so often
before the one ahead of it has to.

* `Arena.depthBelow`: the three measures in one number.
* `exists_run_evalNode`: **an evaluation ends** when its limit is above that number.
* `Built.exists_run_evalNode`: so it does in a built grammar, with the limit allowed for.
-/

namespace Packrat

open Evaluation

/-- The limit for so many characters left, and leading rules that rank below `height`, without
the place of the node. -/
def Arena.depthBelow (arena : Arena) (remaining height : Nat) : Nat :=
  (remaining * (arena.rules.size + 1) + height) * (arena.nodes.size + 1)

variable {arena : Arena} {input : Input} {mode : Mode} {depth pos : Nat} {id : NodeId}

/-- Going down to any place counts less than what stands ahead of the place. -/
theorem depthBelow_add_lt {remaining height remaining' height' place : Nat}
    (h : remaining * (arena.rules.size + 1) + height <
      remaining' * (arena.rules.size + 1) + height')
    (hplace : place < arena.nodes.size) :
    arena.depthBelow remaining height + place < arena.depthBelow remaining' height' := by
  have hle := Nat.mul_le_mul_right (arena.nodes.size + 1) (Nat.succ_le_of_lt h)
  rw [Nat.succ_mul] at hle
  unfold Arena.depthBelow
  omega

/-- A part that begins further on counts less, whatever its leading rules. -/
theorem depthBelow_add_lt_of_remaining {remaining remaining' height place : Nat}
    (h : remaining < remaining') (hplace : place < arena.nodes.size) :
    arena.depthBelow remaining arena.rules.size + place < arena.depthBelow remaining' height := by
  refine depthBelow_add_lt ?_ hplace
  have hle := Nat.mul_le_mul_right (arena.rules.size + 1) (Nat.succ_le_of_lt h)
  rw [Nat.succ_mul] at hle
  omega

theorem depthBelow_add_lt_depthLimit {remaining place : Nat} (hplace : place < arena.nodes.size) :
    arena.depthBelow remaining arena.rules.size + place < arena.depthLimit remaining := by
  have hlimit : arena.depthLimit remaining = arena.depthBelow (remaining + 1) 0 := rfl
  rw [hlimit]
  exact depthBelow_add_lt_of_remaining (Nat.lt_succ_self remaining) hplace

/-- Leading rules rank below the number of rules. -/
theorem rank_lt_of_mem_leading (hwf : arena.WellFormed) {rank : Nat → Nat}
    (hrank : arena.leadsTo.Ranked rank) {known : Nullability} {place w : Nat}
    (hw : w ∈ arena.leading known place) : rank w < arena.rules.size := by
  rw [← Arena.order_leadsTo]
  refine hrank.lt_order w ?_
  rw [Arena.order_leadsTo]
  exact Arena.leading_lt hwf hw

/-- A sequence ends when its parts do, each at the offset of the sequence or behind it; at the
offset of the sequence it takes the parts of the opening only. -/
theorem exists_run_evalSequence {known : Nullability} (hfixed : Nullability.Fixed arena known)
    {start : Nat} {children : List NodeId}
    (heval : ∀ child ∈ children, ∀ p f, pos ≤ p → p ≤ input.length →
      (p = pos → child ∈ known.opening children) →
        ∃ r, (plainNode arena input mode depth child p).run f = .ok r) :
    ∀ (rest front : List NodeId) (p f : Nat), children = front ++ rest → pos ≤ p →
      p ≤ input.length → (p = pos → ∀ child ∈ front, known.node child = true) →
        ∃ r, (evalSequence (plainNode arena input mode depth) start rest p).run f = .ok r := by
  intro rest
  induction rest with
  | nil => exact fun _ p f _ _ _ _ => ⟨_, rfl⟩
  | cons child rest ih =>
    intro front p f hchildren hle hp hfront
    obtain ⟨⟨outcome, t⟩, hone⟩ := heval child (by simp [hchildren]) p f hle hp
      fun hsame => hchildren ▸ mem_opening (hfront hsame)
    refine exists_run_bind hone ?_
    cases outcome with
    | noMatch failure => exact ⟨_, rfl⟩
    | matched span =>
      obtain ⟨-, hge, hstop⟩ := evalNode_within hp hone
      -- a part that stays at the offset of the sequence is nullable
      refine ih (front ++ [child]) span.stop t (by simp [hchildren]) (Nat.le_trans hle hge) hstop ?_
      intro hsame other hother
      rcases List.mem_append.1 hother with hother | hother
      · exact hfront (by omega) other hother
      · rw [List.mem_singleton.1 hother]
        exact nullable_of_evalNode hfixed hp hone (by omega)

/-- **An evaluation ends** when its limit is high enough for the text that is left, the ranks of
its leading rules, and its place. -/
theorem exists_run_evalNode (hwf : arena.WellFormed) {rank : Nat → Nat}
    (hrank : arena.leadsTo.Ranked rank) {height : Nat} (f : Nat)
    (hid : id.index < arena.nodes.size) (hpos : pos ≤ input.length)
    (hheight : ∀ w ∈ arena.leading arena.nullability id.index, rank w < height)
    (hdepth : arena.depthBelow (input.length - pos) height + id.index < depth) :
    ∃ r, (plainNode arena input mode depth id pos).run f = .ok r := by
  induction depth generalizing id pos f height with
  | zero => omega
  | succ depth ih =>
    obtain ⟨node, hnode⟩ := Arena.exists_node hid
    cases node with
    | primitive p => exact ⟨_, evalNode_run_eq_ok.2 ⟨_, .primitive p hnode, rfl⟩⟩
    | sequence children =>
      have heval : ∀ child ∈ children, ∀ p f, pos ≤ p → p ≤ input.length →
          (p = pos → child ∈ arena.nullability.opening children) →
            ∃ r, (plainNode arena input mode depth child p).run f = .ok r := by
        intro child hc p f hle hp hopening
        have hlt := hwf.child_lt id.index children hnode child hc
        rcases Nat.eq_or_lt_of_le hle with hsame | hlater
        · -- at the offset of the sequence the leading rules of a part are its own
          rw [← hsame]
          refine ih f (by omega) hpos (fun w hw => hheight w ?_) (by omega)
          exact (Arena.leading_sequence hwf hnode).2 ⟨child, hopening hsame.symm, hw⟩
        -- behind it they may be any, as less of the text is left
        · refine ih f (by omega) hp (fun w hw => rank_lt_of_mem_leading hwf hrank hw) ?_
          have hless : arena.depthBelow (input.length - p) arena.rules.size + child.index <
              arena.depthBelow (input.length - pos) height :=
            depthBelow_add_lt_of_remaining (by omega) (Nat.lt_trans hlt hid)
          omega
      obtain ⟨⟨outcome, inner⟩, hrun⟩ :
          ∃ r, (evalSequence (plainNode arena input mode depth) pos children pos).run f = .ok r :=
        exists_run_evalSequence arena.nullability_fixed heval children [] pos f rfl
          (Nat.le_refl pos) hpos (by simp)
      exact ⟨_, evalNode_run_eq_ok.2 ⟨_, .sequence children hnode outcome inner hrun, rfl⟩⟩
    | rule rid =>
      obtain ⟨rule, hrule⟩ := hwf.exists_rule hnode
      -- every rule that an alternative leads to ranks below this one
      have hhere : rank rid < height := hheight rid (by simp [Arena.leading_rule hnode])
      have heval : ∀ alternative ∈ rule.alternatives, ∀ f,
          ∃ r, (plainNode arena input mode depth alternative pos).run f = .ok r := by
        intro alternative ha f
        have hlt := hwf.alternative_lt rid rule hrule alternative ha
        have hranks : ∀ w ∈ arena.leading arena.nullability alternative.index,
            rank w < rank rid := by
          intro w hw
          refine hrank.edge rid w ?_ ((Arena.leadsTo_edge hwf).2 ⟨rule, hrule, alternative, ha, hw⟩)
          rw [Arena.order_leadsTo]
          exact hwf.rule_lt id.index rid hnode
        have hless : arena.depthBelow (input.length - pos) (rank rid) + alternative.index <
            arena.depthBelow (input.length - pos) height :=
          depthBelow_add_lt (Nat.add_lt_add_left hhere _) hlt
        exact ih f hlt hpos hranks (by omega)
      obtain ⟨⟨outcomes, inner⟩, htried⟩ :
          ∃ r, (triedOutcomes mode (plainNode arena input mode depth · pos)
            rule.alternatives).run pos = .ok r := exists_run_triedOutcomes heval pos
      have hbody : (plainBody arena input mode depth rule pos).run pos =
          .ok (Resolution.ofOutcomes 0 none ⟨pos⟩ outcomes, inner) :=
        run_resolve_eq_ok.2 ⟨outcomes, htried, rfl⟩
      exact ⟨_, evalNode_run_eq_ok.2 ⟨_, .rule rid rule hnode hrule _ inner hbody, rfl⟩⟩

/-- **In a built grammar every evaluation ends** with the limit allowed for, or a higher one. -/
theorem Grammar.Built.exists_run_evalNode {grammar : Grammar} (h : grammar.Built) (mode : Mode)
    (f : Nat) (hid : id.index < grammar.arena.nodes.size) (hpos : pos ≤ input.length)
    (hdepth : grammar.arena.depthLimit (input.length - pos) ≤ depth) :
    ∃ r, (plainNode grammar.arena input mode depth id pos).run f = .ok r := by
  obtain ⟨rank, hrank⟩ :=
    Digraph.findCycle?_eq_none (Arena.leadsTo_closed h.wellFormed) h.findCycle?_eq_none
  exact Packrat.exists_run_evalNode h.wellFormed hrank f hid hpos
    (fun w hw => rank_lt_of_mem_leading h.wellFormed hrank hw)
    (Nat.lt_of_lt_of_le (depthBelow_add_lt_depthLimit hid) hdepth)

end Packrat
