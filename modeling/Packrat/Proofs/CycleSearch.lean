import Packrat.Digraph
import Mathlib.Data.List.Chain
import Mathlib.Data.List.Perm.Subperm

/-!
# The search for a cycle

A search keeps an invariant (`Search.Sound`): the active vertices are those on the path, the path
follows edges and visits no vertex twice, and the vertices that are done are closed under edges
and can be ranked so that every edge goes down.

* `findCycle?_eq_some`: a cycle that is found is one (`IsCycle`), and each of its vertices leads to
  one of them (`IsCycle.exists_edge`).
* `findCycle?_eq_none`: where none is found every edge goes down in some ranking of the vertices,
  with ranks below the number of vertices.
-/

namespace Packrat

namespace Digraph

/-- There is an edge from `v` to `w`. -/
def Edge (g : Digraph) (v w : Nat) : Prop := w ∈ g.targets v

/-- Every edge leads to a vertex of the graph. -/
def Closed (g : Digraph) : Prop := ∀ v w, g.Edge v w → w < g.order

/-- A way along edges from a vertex back to it that visits no other vertex twice. -/
structure IsCycle (g : Digraph) (cycle : List Nat) : Prop where
  edges : cycle.IsChain g.Edge
  ends : ∃ v inner, cycle = v :: inner ++ [v] ∧ (v :: inner).Nodup

/-- Every edge between vertices goes down in rank, and ranks are below the number of vertices. -/
structure Ranked (g : Digraph) (rank : Nat → Nat) : Prop where
  lt_order : ∀ v, v < g.order → rank v < g.order
  edge : ∀ v w, v < g.order → g.Edge v w → rank w < rank v

end Digraph

namespace Search

variable {g : Digraph} {s next : Search} {v w : Nat}

/-- All that can be reached from `v` was followed. -/
def Done (s : Search) (v : Nat) : Prop := s.visits[v]? = some .done

/-- **What a search keeps.** -/
structure Sound (g : Digraph) (s : Search) : Prop where
  size : s.visits.size = g.order
  active : ∀ v, s.visits[v]? = some .active ↔ v ∈ s.path
  nodup : s.path.Nodup
  chain : s.path.IsChain fun v w => g.Edge w v
  ranked : ∃ rank : Nat → Nat, ∀ v, s.Done v →
    rank v < s.visits.count .done ∧ ∀ w, g.Edge v w → s.Done w ∧ rank w < rank v

/-- A search went on from `s` to `next` and is done with the vertices `vs`. -/
structure Extends (g : Digraph) (vs : List Nat) (s next : Search) : Prop where
  sound : next.Sound g
  path : next.path = s.path
  done : ∀ v, s.Done v → next.Done v
  all : ∀ v ∈ vs, next.Done v

theorem start_sound (g : Digraph) : (start g.order).Sound g := by
  refine ⟨by simp [start], ?_, by simp [start], by simp [start], fun _ => 0, ?_⟩
  · intro v
    simp only [start, Array.getElem?_replicate, List.not_mem_nil, iff_false]
    split <;> simp
  · intro v hv
    simp only [Done, start, Array.getElem?_replicate] at hv
    split at hv <;> simp at hv

theorem Sound.lt_of_mem_path (h : s.Sound g) (hv : v ∈ s.path) : v < g.order := by
  have := (h.active v).2 hv
  rw [← h.size]
  exact (Array.getElem?_eq_some_iff.1 this).1

/-- There is room on the path for a vertex that is not on it. -/
theorem Sound.length_path_lt (h : s.Sound g) (hv : v < g.order) (hfresh : v ∉ s.path) :
    s.path.length < g.order := by
  -- distinct vertices below the order are no more than the order
  have hnd : (v :: s.path).Nodup := List.nodup_cons.2 ⟨hfresh, h.nodup⟩
  have hsub : v :: s.path ⊆ List.range g.order := by
    intro w hw
    rw [List.mem_range]
    rcases List.mem_cons.1 hw with rfl | hw
    · exact hv
    · exact h.lt_of_mem_path hw
  have := (List.subperm_of_subset hnd hsub).length_le
  rw [List.length_cons, List.length_range] at this
  omega

theorem count_done_enter (hv : s.visits[v]? = some .fresh) :
    (s.enter v).visits.count .done = s.visits.count .done := by
  obtain ⟨hlt, hfresh⟩ := Array.getElem?_eq_some_iff.1 hv
  simp [enter, Array.setIfInBounds, hlt, Array.count_set, hfresh]

theorem count_done_leave (hv : s.visits[v]? = some .active) :
    (s.leave v).visits.count .done = s.visits.count .done + 1 := by
  obtain ⟨hlt, hactive⟩ := Array.getElem?_eq_some_iff.1 hv
  simp [leave, Array.setIfInBounds, hlt, Array.count_set, hactive]

theorem getElem?_enter (hv : v < s.visits.size) :
    (s.enter v).visits[w]? = if w = v then some .active else s.visits[w]? := by
  rw [enter, Array.getElem?_setIfInBounds]
  by_cases h : v = w
  · subst h; simp [hv]
  · simp [h, Ne.symm h]

theorem getElem?_leave (hv : v < s.visits.size) :
    (s.leave v).visits[w]? = if w = v then some .done else s.visits[w]? := by
  rw [leave, Array.getElem?_setIfInBounds]
  by_cases h : v = w
  · subst h; simp [hv]
  · simp [h, Ne.symm h]

/-- Entering a fresh vertex keeps the invariant. -/
theorem Sound.enter (h : s.Sound g) (hv : s.visits[v]? = some .fresh)
    (hchain : (v :: s.path).IsChain fun v w => g.Edge w v) : (s.enter v).Sound g := by
  have hlt : v < s.visits.size := (Array.getElem?_eq_some_iff.1 hv).1
  have hfresh : v ∉ s.path := by
    intro hmem
    rw [(h.active v).2 hmem] at hv
    cases hv
  have hdone : ∀ w, (s.enter v).Done w ↔ s.Done w := by
    intro w
    rw [Done, getElem?_enter hlt, Done]
    by_cases hw : w = v
    · subst hw; simp [hv]
    · simp [hw]
  refine ⟨by simp [Search.enter, h.size], ?_, List.nodup_cons.2 ⟨hfresh, h.nodup⟩, hchain, ?_⟩
  · intro w
    rw [getElem?_enter hlt]
    by_cases hw : w = v
    · subst hw; simp [Search.enter]
    · simp [Search.enter, hw, h.active]
  · obtain ⟨rank, hrank⟩ := h.ranked
    refine ⟨rank, fun w hw => ?_⟩
    rw [count_done_enter hv]
    obtain ⟨h1, h2⟩ := hrank w ((hdone w).1 hw)
    exact ⟨h1, fun u hu => ⟨(hdone u).2 (h2 u hu).1, (h2 u hu).2⟩⟩

/-- Leaving a vertex whose targets are done keeps the invariant: the vertex ranks above all that
were done before it. -/
theorem Sound.leave (h : s.Sound g) {rest : List Nat} (hpath : s.path = v :: rest)
    (hall : ∀ w, g.Edge v w → s.Done w) : (s.leave v).Sound g := by
  have hactive : s.visits[v]? = some .active := (h.active v).2 (by simp [hpath])
  have hlt : v < s.visits.size := (Array.getElem?_eq_some_iff.1 hactive).1
  have hnd : v ∉ rest ∧ rest.Nodup := by simpa [hpath] using h.nodup
  have hleft : (s.leave v).path = rest := by simp [Search.leave, hpath]
  have hdone : ∀ w, (s.leave v).Done w ↔ w = v ∨ s.Done w := by
    intro w
    rw [Done, getElem?_leave hlt, Done]
    by_cases hw : w = v <;> simp [hw]
  have hne : ∀ w, s.Done w → w ≠ v := by
    rintro w hw rfl
    rw [Done, hactive] at hw
    cases hw
  refine ⟨by simp [Search.leave, h.size], ?_, by rw [hleft]; exact hnd.2, ?_, ?_⟩
  · intro w
    rw [getElem?_leave hlt, hleft]
    by_cases hw : w = v
    · subst hw; simp [hnd.1]
    · simp [hw, h.active, hpath]
  · rw [hleft]
    have := h.chain
    rw [hpath] at this
    exact this.tail
  -- no vertex that was done before leads to `v`, so its rank may be changed
  · obtain ⟨rank, hrank⟩ := h.ranked
    refine ⟨Function.update rank v (s.visits.count .done), fun w hw => ?_⟩
    rw [count_done_leave hactive]
    rcases (hdone w).1 hw with rfl | hw
    · rw [Function.update_self]
      refine ⟨Nat.lt_succ_self _, fun u hu => ?_⟩
      rw [Function.update_of_ne (hne u (hall u hu))]
      exact ⟨(hdone u).2 (Or.inr (hall u hu)), (hrank u (hall u hu)).1⟩
    · obtain ⟨h1, h2⟩ := hrank w hw
      rw [Function.update_of_ne (hne w hw)]
      refine ⟨by omega, fun u hu => ?_⟩
      rw [Function.update_of_ne (hne u (h2 u hu).1)]
      exact ⟨(hdone u).2 (Or.inr (h2 u hu).1), (h2 u hu).2⟩

/-- An edge from the end of the path back into it closes a cycle. -/
theorem Sound.closing (h : s.Sound g) (hv : v ∈ s.path)
    (hchain : (v :: s.path).IsChain fun v w => g.Edge w v) :
    ∃ cycle, s.closing? v = some cycle ∧ g.IsCycle cycle := by
  obtain ⟨front, back, hpath, hfront⟩ := List.eq_append_cons_of_mem hv
  have htake : s.path.takeWhile (· ≠ v) = front := by
    have hne : ∀ w ∈ front, decide (w ≠ v) = true := by
      intro w hw
      simpa using ne_of_mem_of_not_mem hw hfront
    rw [hpath, List.takeWhile_append_of_pos hne]
    simp
  have hclose : s.closing? v = some (v :: front.reverse ++ [v]) := by
    rw [closing?, if_pos hv, htake]
  refine ⟨_, hclose, ?_, v, front.reverse, rfl, ?_⟩
  · have hrev : v :: front.reverse ++ [v] = (v :: front ++ [v]).reverse := by simp
    rw [hrev, List.isChain_reverse]
    refine hchain.prefix ⟨back, ?_⟩
    rw [hpath]; simp
  · have hnd := h.nodup
    rw [hpath, List.nodup_append] at hnd
    refine List.nodup_cons.2 ⟨by simpa using hfront, ?_⟩
    exact List.pairwise_reverse.2 (hnd.1.imp Ne.symm)

theorem Extends.refl (h : s.Sound g) : Extends g [] s s :=
  ⟨h, rfl, fun _ hv => hv, by simp⟩

theorem Extends.trans {vs ws : List Nat} {mid : Search} (h1 : Extends g vs s mid)
    (h2 : Extends g ws mid next) : Extends g (vs ++ ws) s next := by
  refine ⟨h2.sound, h2.path.trans h1.path, fun v hv => h2.done v (h1.done v hv), fun v hv => ?_⟩
  rcases List.mem_append.1 hv with hv | hv
  · exact h2.done v (h1.all v hv)
  · exact h2.all v hv

/-- What a part of a search ends with: a cycle, or a search that went on and is done with `vs`. -/
def Result (g : Digraph) (vs : List Nat) (s : Search) : Except (List Nat) Search → Prop
  | .error cycle => g.IsCycle cycle
  | .ok next => Extends g vs s next

/-- Following several edges, given what following one of them ends with. -/
theorem Result.foldlM {visit : Search → Nat → Except (List Nat) Search} :
    ∀ (vs : List Nat) (s : Search), s.Sound g →
      (∀ v ∈ vs, ∀ t : Search, t.Sound g → t.path = s.path → Result g [v] t (visit t v)) →
      Result g vs s (vs.foldlM visit s)
  | [], s, hs, _ => Extends.refl hs
  | v :: vs, s, hs, hvisit => by
    rw [List.foldlM_cons]
    have hone := hvisit v List.mem_cons_self s hs rfl
    cases hv : visit s v with
    | error cycle =>
      rw [hv] at hone
      exact hone
    | ok mid =>
      rw [hv] at hone
      have hrest := Result.foldlM vs mid hone.sound fun w hw t ht hpath =>
        hvisit w (List.mem_cons_of_mem _ hw) t ht (hpath.trans hone.path)
      show Result g (v :: vs) s (vs.foldlM visit mid)
      cases hvs : vs.foldlM visit mid with
      | error cycle =>
        rw [hvs] at hrest
        exact hrest
      | ok next =>
        rw [hvs] at hrest
        exact hone.trans hrest

end Search

namespace Digraph

open Search

variable {g : Digraph}

theorem explore_of_done {room : Nat} {s : Search} {v : Nat} (hv : s.Done v) :
    g.explore room s v = .ok s := by
  rw [Done] at hv
  unfold explore
  simp only [Array.getD_eq_getD_getElem?, hv, Option.getD_some]

theorem explore_of_active {room : Nat} {s : Search} {v : Nat} {cycle : List Nat}
    (hv : s.visits[v]? = some .active) (hclose : s.closing? v = some cycle) :
    g.explore room s v = .error cycle := by
  unfold explore
  simp only [Array.getD_eq_getD_getElem?, hv, Option.getD_some, hclose]

theorem explore_of_fresh {room : Nat} {s : Search} {v : Nat} (hv : s.visits[v]? = some .fresh) :
    g.explore (room + 1) s v =
      (·.leave v) <$> (g.targets v).foldlM (g.explore room) (s.enter v) := by
  rw [explore]
  simp only [Array.getD_eq_getD_getElem?, hv, Option.getD_some]
  rfl

/-- **One call of the search.** With room on the path for all vertices that are not on it, a call
closes a cycle or is done with its vertex. -/
theorem explore_result (hg : g.Closed) : ∀ (room : Nat) (s : Search) (v : Nat), s.Sound g →
    v < g.order → g.order ≤ room + s.path.length →
    (v :: s.path).IsChain (fun v w => g.Edge w v) → Result g [v] s (g.explore room s v) := by
  intro room
  induction room with
  | zero =>
    intro s v hs hv hroom hchain
    -- without room all vertices are on the path
    have hmem : v ∈ s.path := by
      by_contra hfresh
      have := hs.length_path_lt hv hfresh
      omega
    obtain ⟨cycle, hclose, hcycle⟩ := hs.closing hmem hchain
    rw [explore_of_active ((hs.active v).2 hmem) hclose]
    exact hcycle
  | succ room ih =>
    intro s v hs hv hroom hchain
    have hlt : v < s.visits.size := by rw [hs.size]; exact hv
    cases hvisit : s.visits[v] with
    | done =>
      have hdone : s.Done v := by rw [Done, Array.getElem?_eq_getElem hlt, hvisit]
      rw [explore_of_done hdone]
      exact ⟨hs, rfl, fun _ hw => hw, by simpa using hdone⟩
    | active =>
      have hactive : s.visits[v]? = some .active := by rw [Array.getElem?_eq_getElem hlt, hvisit]
      obtain ⟨cycle, hclose, hcycle⟩ := hs.closing ((hs.active v).1 hactive) hchain
      rw [explore_of_active hactive hclose]
      exact hcycle
    | fresh =>
      have hfresh : s.visits[v]? = some .fresh := by rw [Array.getElem?_eq_getElem hlt, hvisit]
      rw [explore_of_fresh hfresh]
      -- the targets are followed with `v` on the path, and one place less to go
      have hall : Result g (g.targets v) (s.enter v)
          ((g.targets v).foldlM (g.explore room) (s.enter v)) := by
        refine Result.foldlM _ _ (hs.enter hfresh hchain) fun w hw t ht hpath => ?_
        have hpath : t.path = v :: s.path := hpath
        refine ih t w ht (hg v w hw) ?_ ?_
        · rw [hpath, List.length_cons]; omega
        · rw [hpath]
          exact List.isChain_cons_cons.2 ⟨hw, hchain⟩
      cases hnext : (g.targets v).foldlM (g.explore room) (s.enter v) with
      | error cycle =>
        rw [hnext] at hall
        exact hall
      | ok next =>
        rw [hnext] at hall
        have hpath : next.path = v :: s.path := hall.path
        have hactive : next.visits[v]? = some .active := (hall.sound.active v).2 (by simp [hpath])
        have hdone : ∀ w, next.Done w → (next.leave v).Done w := by
          intro w hw
          rw [Done, getElem?_leave (Array.getElem?_eq_some_iff.1 hactive).1]
          split
          · rfl
          · exact hw
        refine ⟨hall.sound.leave hpath hall.all, by simp [Search.leave, hpath], ?_, ?_⟩
        · intro w hw
          refine hdone w (hall.done w ?_)
          rw [Done, getElem?_enter hlt, if_neg]
          · exact hw
          · rintro rfl
            rw [Done, hfresh] at hw
            cases hw
        · intro w hw
          rw [List.mem_singleton.1 hw, Done,
            getElem?_leave (Array.getElem?_eq_some_iff.1 hactive).1, if_pos rfl]

/-- What the calls from the first vertices end with, one after another, if there are so many. -/
def searched (g : Digraph) (count : Nat) : Except (List Nat) Search :=
  (List.range count).foldlM (g.explore g.order) (.start g.order)

/-- **The calls from the first vertices** close a cycle or are done with these vertices. -/
theorem searched_result (hg : g.Closed) {count : Nat} (hcount : count ≤ g.order) :
    Result g (List.range count) (.start g.order) (g.searched count) := by
  refine Result.foldlM _ _ (start_sound g) fun v hv t ht hpath => ?_
  have hpath : t.path = [] := hpath
  have hlt : v < g.order := Nat.lt_of_lt_of_le (List.mem_range.1 hv) hcount
  refine explore_result hg _ t v ht hlt (by omega) ?_
  rw [hpath]
  exact List.isChain_singleton v

/-- **A cycle that is found is one.** -/
theorem findCycle?_eq_some (hg : g.Closed) {cycle : List Nat} (h : g.findCycle? = some cycle) :
    g.IsCycle cycle := by
  have hres := searched_result hg (Nat.le_refl g.order)
  unfold searched at hres
  unfold findCycle? at h
  split at h
  · cases h
  · rename_i found hfound
    rw [hfound] at hres
    cases h
    exact hres

/-- **Where no cycle is found every edge goes down** in some ranking of the vertices. -/
theorem findCycle?_eq_none (hg : g.Closed) (h : g.findCycle? = none) :
    ∃ rank, g.Ranked rank := by
  have hres := searched_result hg (Nat.le_refl g.order)
  unfold searched at hres
  unfold findCycle? at h
  split at h
  · rename_i last hlast
    rw [hlast] at hres
    obtain ⟨rank, hrank⟩ := hres.sound.ranked
    have hall : ∀ v, v < g.order → last.Done v := fun v hv => hres.all v (List.mem_range.2 hv)
    refine ⟨rank, fun v hv => ?_, fun v w hv hw => ((hrank v (hall v hv)).2 w hw).2⟩
    have hcount : last.visits.count .done ≤ g.order := by
      rw [← hres.sound.size]; exact Array.count_le_size
    exact lt_of_lt_of_le (hrank v (hall v hv)).1 hcount
  · cases h

/-- Along a chain every vertex but the last has an edge to one of the chain. -/
theorem exists_edge_of_isChain {front : List Nat} {last : Nat}
    (h : (front ++ [last]).IsChain g.Edge) :
    ∀ v ∈ front, ∃ w ∈ front ++ [last], g.Edge v w := by
  induction front with
  | nil => simp
  | cons v rest ih =>
    refine List.forall_mem_cons.2 ⟨?_, fun u hu => ?_⟩
    · cases rest with
      | nil => exact ⟨last, by simp, (List.isChain_cons_cons.1 h).1⟩
      | cons next rest => exact ⟨next, by simp, (List.isChain_cons_cons.1 h).1⟩
    · obtain ⟨w, hw, hedge⟩ := ih h.tail u hu
      exact ⟨w, List.mem_cons_of_mem _ hw, hedge⟩

/-- Every vertex of a cycle has an edge to one of the cycle. -/
theorem IsCycle.exists_edge {cycle : List Nat} (h : g.IsCycle cycle) {v : Nat} (hv : v ∈ cycle) :
    ∃ w ∈ cycle, g.Edge v w := by
  obtain ⟨first, inner, hcycle, -⟩ := h.ends
  have hedges := h.edges
  rw [hcycle] at hedges hv ⊢
  refine exists_edge_of_isChain hedges v ?_
  -- the last vertex is the first one
  rcases List.mem_append.1 hv with hv | hv
  · exact hv
  · rw [List.mem_singleton.1 hv]
    exact List.mem_cons_self

end Digraph

end Packrat
