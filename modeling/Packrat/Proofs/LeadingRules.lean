import Packrat.Proofs.Building
import Packrat.Proofs.CycleSearch
import Packrat.Arena.Leading

/-!
# The digraph of leading rules

* `leading_sequence`: the leading rules of a sequence are those of the parts that it opens with.
* `mem_opening`: a part belongs to the opening when all parts before it are nullable.
* `leadsTo_edge`: the edges of the digraph, which stay in it (`leadsTo_closed`).
-/

namespace Packrat

section Opening

variable {known : Nullability} {child : NodeId} {front back children : List NodeId}

/-- **The opening of a sequence** goes on over nullable parts. -/
theorem mem_opening (hfront : ∀ other ∈ front, known.node other = true) :
    child ∈ known.opening (front ++ child :: back) := by
  induction front with
  | nil =>
    rw [List.nil_append, Nullability.opening]
    split <;> exact List.mem_cons_self
  | cons other front ih =>
    rw [List.cons_append, Nullability.opening, if_pos (hfront other List.mem_cons_self)]
    exact List.mem_cons_of_mem _ (ih fun c hc => hfront c (List.mem_cons_of_mem _ hc))

/-- A part of the opening has nullable parts before it only. -/
theorem exists_of_mem_opening (h : child ∈ known.opening children) :
    ∃ front back, children = front ++ child :: back ∧
      ∀ other ∈ front, known.node other = true := by
  induction children with
  | nil => cases h
  | cons first rest ih =>
    rw [Nullability.opening] at h
    split at h
    · rename_i hnull
      rcases List.mem_cons.1 h with rfl | h
      · exact ⟨[], rest, rfl, by simp⟩
      · obtain ⟨front, back, rfl, hfront⟩ := ih h
        exact ⟨first :: front, back, rfl, List.forall_mem_cons.2 ⟨hnull, hfront⟩⟩
    · rw [List.mem_singleton.1 h]
      exact ⟨[], rest, rfl, by simp⟩

theorem mem_of_mem_opening (h : child ∈ known.opening children) : child ∈ children := by
  obtain ⟨front, back, rfl, -⟩ := exists_of_mem_opening h
  simp

end Opening

namespace Arena

variable {arena : Arena} {known : Nullability} {place : Nat} {v w : RuleId}

theorem leading_rule {id : RuleId} (h : arena.nodes[place]? = some (.rule id)) :
    arena.leading known place = [id] := by
  rw [leading]
  split <;> simp_all

theorem leading_primitive {p : Primitive} (h : arena.nodes[place]? = some (.primitive p)) :
    arena.leading known place = [] := by
  rw [leading]
  split <;> simp_all

/-- The leading rules of a sequence, in order. -/
theorem leading_eq_flatMap {children : List NodeId}
    (h : arena.nodes[place]? = some (.sequence children))
    (hlt : ∀ child ∈ children, child.index < place) :
    arena.leading known place =
      (known.opening children).flatMap fun child => arena.leading known child.index := by
  rw [leading, h]
  refine List.flatMap_congr fun child hc => ?_
  rw [dif_pos (hlt child (mem_of_mem_opening hc))]

/-- **The leading rules of a sequence** are those of the parts that it opens with. -/
theorem leading_sequence (hwf : arena.WellFormed) {children : List NodeId}
    (h : arena.nodes[place]? = some (.sequence children)) :
    w ∈ arena.leading known place ↔
      ∃ child ∈ known.opening children, w ∈ arena.leading known child.index := by
  rw [leading_eq_flatMap h (hwf.child_lt place children h), List.mem_flatMap]

theorem leading_lt (hwf : arena.WellFormed) (h : w ∈ arena.leading known place) :
    w < arena.rules.size := by
  induction place using Nat.strong_induction_on with
  | _ place ih =>
    cases hnode : arena.nodes[place]? with
    | none =>
      rw [leading] at h
      split at h <;> simp_all
    | some node =>
      cases node with
      | primitive p =>
        rw [leading_primitive hnode] at h
        cases h
      | sequence children =>
        obtain ⟨child, hc, hw⟩ := (leading_sequence hwf hnode).1 h
        exact ih child.index (hwf.child_lt place _ hnode child (mem_of_mem_opening hc)) hw
      | rule id =>
        rw [leading_rule hnode, List.mem_singleton] at h
        rw [h]
        exact hwf.rule_lt place id hnode

theorem order_leadsTo (arena : Arena) : arena.leadsTo.order = arena.rules.size := by
  simp [leadsTo, Digraph.order]

/-- **The edges of the digraph** lead from a rule to the leading rules of its alternatives. -/
theorem leadsTo_edge (hwf : arena.WellFormed) :
    arena.leadsTo.Edge v w ↔ ∃ rule, arena.rule? v = some rule ∧
      ∃ alternative ∈ rule.alternatives, w ∈ arena.leading arena.nullability alternative.index := by
  simp only [Digraph.Edge, Digraph.targets, leadsTo, Array.getD_eq_getD_getElem?,
    Array.getElem?_map, rule?]
  cases hrule : arena.rules[v]? with
  | none => simp
  | some rule =>
    simp only [Option.map_some, Option.getD_some, leadingOfRule, List.mem_filter, List.mem_range,
      List.contains_iff_mem, List.mem_flatMap, Option.some.injEq, exists_eq_left']
    constructor
    · rintro ⟨-, h⟩
      exact h
    · rintro ⟨alternative, ha, hw⟩
      exact ⟨leading_lt hwf hw, alternative, ha, hw⟩

theorem leadsTo_closed (hwf : arena.WellFormed) : arena.leadsTo.Closed := by
  intro v w h
  obtain ⟨rule, -, alternative, -, hw⟩ := (leadsTo_edge hwf).1 h
  rw [order_leadsTo]
  exact leading_lt hwf hw

end Arena

end Packrat
