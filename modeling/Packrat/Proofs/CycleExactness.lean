import Packrat.Proofs.CheckedLookups
import Mathlib.Logic.Relation

/-!
# The search for a cycle is exact

A digraph has a cycle when some vertex can be reached from itself along one edge or more.

* `Ranked.not_transGen`: a digraph in which every edge goes down has none.
* `IsCycle.transGen`, `IsCycle.shape`: what is known of a list of vertices that is a cycle.
* `findCycle?_exact`: **a cycle is found just where there is one**, by a search that comes to an
  end, finds every active vertex on its path, and leaves no path behind where it finds no cycle.
-/

namespace Packrat.Digraph

open Search Relation

variable {g : Digraph}

/-- Only edges from vertices of the graph are to be looked at. -/
theorem closed_iff : g.Closed ↔ ∀ v, v < g.order → ∀ w ∈ g.targets v, w < g.order :=
  ⟨fun h v _ w hedge => h v w hedge,
    fun h v w hedge => h v (Checked.lt_order_of_edge hedge) w hedge⟩

instance : Decidable g.Closed := decidable_of_iff' _ closed_iff

/-- A way along edges goes down in rank. -/
theorem Ranked.rank_lt_of_transGen {rank : Nat → Nat} (hrank : g.Ranked rank) {v w : Nat}
    (hway : TransGen g.Edge v w) : rank w < rank v := by
  induction hway with
  | single hedge => exact hrank.edge v _ (Checked.lt_order_of_edge hedge) hedge
  | tail _ hedge ih => exact (hrank.edge _ _ (Checked.lt_order_of_edge hedge) hedge).trans ih

/-- Where every edge goes down no vertex is reached from itself. -/
theorem Ranked.not_transGen {rank : Nat → Nat} (hrank : g.Ranked rank) (v : Nat) :
    ¬ TransGen g.Edge v v := by
  intro hway
  exact Nat.lt_irrefl _ (hrank.rank_lt_of_transGen hway)

/-- The first vertex of a cycle is reached from itself. -/
theorem IsCycle.transGen {cycle : List Nat} (h : g.IsCycle cycle) : ∃ v, TransGen g.Edge v v := by
  obtain ⟨v, inner, rfl, -⟩ := h.ends
  -- behind the first edge the rest of the cycle leads to its last vertex, which is `v`
  obtain ⟨w, rest, hrest⟩ : ∃ w rest, inner ++ [v] = w :: rest := by
    cases inner with
    | nil => exact ⟨v, [], rfl⟩
    | cons w rest => exact ⟨w, rest ++ [v], rfl⟩
  have hedges := h.edges
  rw [List.cons_append, hrest, List.isChain_cons_cons] at hedges
  have hlast : (w :: rest).getLast (List.cons_ne_nil w rest) = v := by
    simp only [← hrest, List.getLast_append_singleton]
  have hback := List.relationReflTransGen_of_exists_isChain_cons rest hedges.2 hlast
  exact ⟨v, TransGen.head' hedges.1 hback⟩

/-- A cycle has two vertices at least, ends with its first one, and has no other twice. -/
theorem IsCycle.shape {cycle : List Nat} (h : g.IsCycle cycle) :
    2 ≤ cycle.length ∧ cycle.head? = cycle.getLast? ∧ cycle.dropLast.Nodup := by
  obtain ⟨v, inner, rfl, hnodup⟩ := h.ends
  refine ⟨by simp, ?_, ?_⟩
  · rw [List.getLast?_concat, List.cons_append, List.head?_cons]
  · rw [List.dropLast_concat]
    exact hnodup

/-- **A cycle is found just where there is one.**

With one vertex after another as its beginning, the search goes no deeper than there are vertices,
and with any room for that it finds all that it looks up: the state and the targets of every
vertex, and each active vertex on the path. As long as no cycle is found the path is empty again
behind every vertex that was begun with. A cycle that is found has its first vertex at its end,
no other vertex twice, and an edge from each vertex to the next. -/
theorem findCycle?_exact (hg : g.Closed) :
    (∀ count, count ≤ g.order →
      (∀ room, g.order ≤ room →
        Checked.follow (Checked.explore g room) (List.range count) (.start g.order) =
          some (g.searched count)) ∧
      ∀ s, g.searched count = .ok s → s.path = []) ∧
    (∀ cycle, g.findCycle? = some cycle ↔ g.searched g.order = .error cycle) ∧
    ((∃ cycle, g.findCycle? = some cycle) ↔ ∃ v, TransGen g.Edge v v) ∧
    ∀ cycle, g.findCycle? = some cycle →
      2 ≤ cycle.length ∧ cycle.head? = cycle.getLast? ∧ cycle.dropLast.Nodup ∧
        cycle.IsChain g.Edge := by
  refine ⟨?_, ?_, ⟨?_, ?_⟩, ?_⟩
  · intro count hcount
    refine ⟨fun room hroom => Checked.follow_searched hg hroom hcount, ?_⟩
    intro s hs
    have hresult := searched_result hg hcount
    rw [hs] at hresult
    exact hresult.path
  · intro cycle
    unfold findCycle? searched
    cases (List.range g.order).foldlM (g.explore g.order) (.start g.order) with
    | ok s => simp
    | error found => simp
  · rintro ⟨cycle, hcycle⟩
    exact (findCycle?_eq_some hg hcycle).transGen
  · rintro ⟨v, hway⟩
    by_contra hnone
    have hnone : g.findCycle? = none := by
      rw [Option.eq_none_iff_forall_ne_some]
      intro cycle hcycle
      exact hnone ⟨cycle, hcycle⟩
    obtain ⟨rank, hrank⟩ := findCycle?_eq_none hg hnone
    exact hrank.not_transGen v hway
  · intro cycle hcycle
    have hiscycle := findCycle?_eq_some hg hcycle
    obtain ⟨hlength, hends, hnodup⟩ := hiscycle.shape
    exact ⟨hlength, hends, hnodup, hiscycle.edges⟩

/-- In the graph `0 → 3`, `0 → 1 → 2 → 1` the search leaves `3` behind and finds `1 → 2 → 1`. -/
theorem findCycle?_exact_behind : (⟨#[[3, 1], [2], [1], []]⟩ : Digraph).Closed ∧
    (⟨#[[3, 1], [2], [1], []]⟩ : Digraph).findCycle? = some [1, 2, 1] ∧
    ∃ v, TransGen (⟨#[[3, 1], [2], [1], []]⟩ : Digraph).Edge v v := by
  have hclosed : (⟨#[[3, 1], [2], [1], []]⟩ : Digraph).Closed := by decide
  have hfound : (⟨#[[3, 1], [2], [1], []]⟩ : Digraph).findCycle? = some [1, 2, 1] := by decide
  obtain ⟨-, -, hiff, -⟩ := findCycle?_exact hclosed
  exact ⟨hclosed, hfound, hiff.1 ⟨_, hfound⟩⟩

end Packrat.Digraph
