import Packrat.Checked
import Packrat.Proofs.CycleSearch
import Packrat.Proofs.LeadingRules
import Packrat.Proofs.NullableFixpoint

/-!
# No lookup misses

In a well-formed arena every lookup finds something, so what is done with checks is what is done
without them.

* `Checked.nullability_eq`, `Checked.leadsTo_eq`, `Checked.findCycle_eq`, `Checked.cycle_eq`: **the
  check that a grammar goes through.**
* `Checked.writtenNode_eq`, `Checked.written_eq`: **the notation.**
-/

namespace Packrat

section Lists

variable {α β σ : Type} {xs : List α}

theorem mapM_eq_some_map {f : α → Option β} {g : α → β} (h : ∀ x ∈ xs, f x = some (g x)) :
    xs.mapM f = some (xs.map g) := by
  induction xs with
  | nil => rfl
  | cons x xs ih =>
    rw [List.mapM_cons, h x List.mem_cons_self, ih fun y hy => h y (List.mem_cons_of_mem _ hy)]
    rfl

theorem mapM_eq_some_filterMap {f : α → Option β} (h : ∀ x ∈ xs, (f x).isSome = true) :
    xs.mapM f = some (xs.filterMap f) := by
  induction xs with
  | nil => rfl
  | cons x xs ih =>
    obtain ⟨y, hy⟩ := Option.isSome_iff_exists.1 (h x List.mem_cons_self)
    rw [List.mapM_cons, List.filterMap_cons, hy, ih fun z hz => h z (List.mem_cons_of_mem _ hz)]
    rfl

theorem allM_eq_some_all {p : α → Option Bool} {q : α → Bool} (h : ∀ x ∈ xs, p x = some (q x)) :
    xs.allM p = some (xs.all q) := by
  induction xs with
  | nil => rfl
  | cons x xs ih =>
    rw [List.allM_cons, h x List.mem_cons_self, List.all_cons,
      ih fun y hy => h y (List.mem_cons_of_mem _ hy)]
    cases q x <;> rfl

theorem anyM_eq_some_any {p : α → Option Bool} {q : α → Bool} (h : ∀ x ∈ xs, p x = some (q x)) :
    xs.anyM p = some (xs.any q) := by
  induction xs with
  | nil => rfl
  | cons x xs ih =>
    rw [List.anyM_cons, h x List.mem_cons_self, List.any_cons,
      ih fun y hy => h y (List.mem_cons_of_mem _ hy)]
    cases q x <;> rfl

/-- Steps that each have a result, from what they keep on, have one together. -/
theorem foldlM_eq_some_foldl (keeps : σ → Prop) {step : σ → α → Option σ} {next : σ → α → σ}
    (hstep : ∀ s, keeps s → ∀ x ∈ xs, step s x = some (next s x) ∧ keeps (next s x)) {s : σ}
    (hs : keeps s) :
    xs.foldlM step s = some (xs.foldl next s) ∧ keeps (xs.foldl next s) := by
  induction xs generalizing s with
  | nil => exact ⟨rfl, hs⟩
  | cons x xs ih =>
    obtain ⟨hone, hkeeps⟩ := hstep s hs x List.mem_cons_self
    rw [List.foldlM_cons, hone, List.foldl_cons]
    exact ih (fun s hs y hy => hstep s hs y (List.mem_cons_of_mem _ hy)) hkeeps

end Lists

namespace Checked

variable {arena : Arena} {known : Nullability} {id : NodeId} {place : Nat}

/-- There is one flag for each node and each rule of the arena. -/
structure Sized (arena : Arena) (known : Nullability) : Prop where
  nodes : known.nodes.size = arena.nodes.size
  rules : known.rules.size = arena.rules.size

theorem initial_sized (arena : Arena) : Sized arena (.initial arena) := by
  constructor <;> simp [Nullability.initial]

theorem Sized.nullable_eq (h : Sized arena known) (hid : id.index < arena.nodes.size) :
    nullable known id = some (known.node id) := by
  rw [← h.nodes] at hid
  rw [nullable, Nullability.node, Array.getD_eq_getD_getElem?, Array.getElem?_eq_getElem hid]
  rfl

theorem Sized.ofNode_eq (h : Sized arena known) (hwf : arena.WellFormed) {node : Node}
    (hnode : arena.nodes[place]? = some node) : ofNode known node = some (known.ofNode node) := by
  have hplace := (Array.getElem?_eq_some_iff.1 hnode).1
  cases node with
  | primitive p => rfl
  | sequence children =>
    refine allM_eq_some_all fun child hc => h.nullable_eq ?_
    exact Nat.lt_trans (hwf.child_lt place children hnode child hc) hplace
  | rule id =>
    have hid := hwf.rule_lt place id hnode
    rw [← h.rules] at hid
    show known.rules[id]? = some (known.rules.getD id false)
    rw [Array.getD_eq_getD_getElem?, Array.getElem?_eq_getElem hid]
    rfl

theorem Sized.ofRule_eq (h : Sized arena known) (hwf : arena.WellFormed) {rid : RuleId}
    {rule : Rule} (hrule : arena.rule? rid = some rule) :
    ofRule known rule = some (known.ofRule rule) :=
  anyM_eq_some_any fun alternative ha =>
    h.nullable_eq (hwf.alternative_lt rid rule hrule alternative ha)

/-- A node of the arena can be marked, and the flags remain as many. -/
theorem Sized.markNode_eq (h : Sized arena known) (hwf : arena.WellFormed) {node : Node}
    (hnode : arena.nodes[place]? = some node) :
    markNode known node place = some (known.markNode node place) ∧
      Sized arena (known.markNode node place) := by
  have hplace : place < known.nodes.size := by
    rw [h.nodes]
    exact (Array.getElem?_eq_some_iff.1 hnode).1
  unfold markNode Nullability.markNode
  rw [h.ofNode_eq hwf hnode, mark, if_pos hplace]
  cases known.ofNode node with
  | false => exact ⟨rfl, h⟩
  | true => exact ⟨rfl, by simpa using h.nodes, h.rules⟩

/-- So can a rule. -/
theorem Sized.markRule_eq (h : Sized arena known) (hwf : arena.WellFormed) {rid : RuleId}
    {rule : Rule} (hrule : arena.rule? rid = some rule) :
    markRule known rule rid = some (known.markRule rule rid) ∧
      Sized arena (known.markRule rule rid) := by
  have hrid : rid < known.rules.size := by
    rw [h.rules]
    exact (Array.getElem?_eq_some_iff.1 hrule).1
  unfold markRule Nullability.markRule
  rw [h.ofRule_eq hwf hrule, mark, if_pos hrid]
  cases known.ofRule rule with
  | false => exact ⟨rfl, h⟩
  | true => exact ⟨rfl, h.nodes, by simpa using h.rules⟩

theorem Sized.pass_eq (h : Sized arena known) (hwf : arena.WellFormed) :
    pass arena known = some (Nullability.pass arena known) ∧
      Sized arena (Nullability.pass arena known) := by
  have hnodes : ∀ known, Sized arena known → ∀ item ∈ arena.nodes.toList.zipIdx,
      markNode known item.1 item.2 = some (known.markNode item.1 item.2) ∧
        Sized arena (known.markNode item.1 item.2) := by
    rintro known hknown ⟨node, place⟩ hitem
    rw [List.mk_mem_zipIdx_iff_getElem?, Array.getElem?_toList] at hitem
    exact hknown.markNode_eq hwf hitem
  have hrules : ∀ known, Sized arena known → ∀ item ∈ arena.rules.toList.zipIdx,
      markRule known item.1 item.2 = some (known.markRule item.1 item.2) ∧
        Sized arena (known.markRule item.1 item.2) := by
    rintro known hknown ⟨rule, id⟩ hitem
    rw [List.mk_mem_zipIdx_iff_getElem?, Array.getElem?_toList] at hitem
    exact hknown.markRule_eq hwf hitem
  obtain ⟨hmarked, hsized⟩ := foldlM_eq_some_foldl (Sized arena) hnodes h
  unfold pass Nullability.pass
  rw [hmarked]
  exact foldlM_eq_some_foldl (Sized arena) hrules hsized

theorem Sized.settle_eq (h : Sized arena known) (hwf : arena.WellFormed) :
    settle arena known = some (Nullability.settle arena known) ∧
      Sized arena (Nullability.settle arena known) := by
  induction known using WellFounded.induction (measure Nullability.unknown).wf with
  | _ known ih =>
    obtain ⟨hpass, hnext⟩ := h.pass_eq hwf
    rw [settle, Nullability.settle, hpass]
    simp only
    split
    · rename_i hlt
      exact ih _ hlt hnext
    · exact ⟨rfl, h⟩

/-- **The nullable nodes and rules** are found with every lookup checked. -/
theorem nullability_eq (hwf : arena.WellFormed) :
    nullability arena = some arena.nullability ∧ Sized arena arena.nullability :=
  (initial_sized arena).settle_eq hwf

theorem Sized.opening_eq (h : Sized arena known) {children : List NodeId}
    (hchildren : ∀ child ∈ children, child.index < arena.nodes.size) :
    opening known children = some (known.opening children) := by
  induction children with
  | nil => rfl
  | cons child rest ih =>
    rw [opening, Nullability.opening, h.nullable_eq (hchildren child List.mem_cons_self),
      ih fun c hc => hchildren c (List.mem_cons_of_mem _ hc)]
    cases known.node child <;> rfl

theorem Sized.leading_eq (h : Sized arena known) (hwf : arena.WellFormed)
    (hplace : place < arena.nodes.size) :
    leading arena known place = some (arena.leading known place) := by
  induction place using Nat.strong_induction_on with
  | _ place ih =>
    obtain ⟨node, hnode⟩ : ∃ node, arena.nodes[place]? = some node :=
      ⟨_, Array.getElem?_eq_getElem hplace⟩
    rw [leading, Arena.leading]
    simp only [hnode]
    cases node with
    | primitive p => rfl
    | rule id => rfl
    | sequence children =>
      have hlt := hwf.child_lt place children hnode
      have hpart : ∀ child ∈ known.opening children,
          (if _h : child.index < place then leading arena known child.index else none) =
            some (if _h : child.index < place then arena.leading known child.index else []) := by
        intro child hc
        obtain ⟨front, back, rfl, -⟩ := exists_of_mem_opening hc
        have hc := hlt child (by simp)
        rw [dif_pos hc, dif_pos hc]
        exact ih child.index hc (Nat.lt_trans hc hplace)
      simp only [h.opening_eq fun child hc => Nat.lt_trans (hlt child hc) hplace]
      show ((known.opening children).mapM _ >>= fun entered => some entered.flatten) = _
      rw [mapM_eq_some_map hpart, List.flatMap_def]
      rfl

theorem Sized.leadingOfRule_eq (h : Sized arena known) (hwf : arena.WellFormed) {rid : RuleId}
    {rule : Rule} (hrule : arena.rule? rid = some rule) :
    leadingOfRule arena known rule = some (arena.leadingOfRule known rule) := by
  have hentered : ∀ id ∈ rule.alternatives,
      leading arena known id.index = some (arena.leading known id.index) :=
    fun id hid => h.leading_eq hwf (hwf.alternative_lt rid rule hrule id hid)
  unfold leadingOfRule Arena.leadingOfRule
  rw [mapM_eq_some_map hentered]
  have hall : (rule.alternatives.map fun id => arena.leading known id.index).flatten.all
      (· < arena.rules.size) = true := by
    rw [← List.flatMap_def, List.all_eq_true]
    intro w hw
    obtain ⟨id, -, hw⟩ := List.mem_flatMap.1 hw
    simpa using Arena.leading_lt hwf hw
  show (if _ then _ else _) = _
  rw [if_pos hall, List.flatMap_def]
  rfl

/-- **The digraph of leading rules** is found with every lookup checked. -/
theorem leadsTo_eq (hwf : arena.WellFormed) : leadsTo arena = some arena.leadsTo := by
  obtain ⟨hnullability, hsized⟩ := nullability_eq hwf
  have hrules : ∀ rule ∈ arena.rules.toList,
      leadingOfRule arena arena.nullability rule =
        some (arena.leadingOfRule arena.nullability rule) := by
    intro rule hrule
    obtain ⟨rid, hrid⟩ := List.getElem?_of_mem hrule
    rw [Array.getElem?_toList] at hrid
    exact hsized.leadingOfRule_eq hwf hrid
  unfold leadsTo Arena.leadsTo
  rw [hnullability]
  show (arena.rules.toList.mapM (leadingOfRule arena arena.nullability) >>=
    fun edges => some (Digraph.mk edges.toArray)) = _
  rw [mapM_eq_some_map hrules, ← Array.toList_map]
  rfl

end Checked

namespace Checked

open Search Packrat.Digraph

variable {g : Digraph}

/-- Following several edges, given that each can be followed with every lookup checked. -/
theorem follow_eq {visit : Search → Nat → Except (List Nat) Search}
    {visit' : Search → Nat → Option (Except (List Nat) Search)} :
    ∀ (vs : List Nat) (s : Search), s.Sound g →
      (∀ v ∈ vs, ∀ t : Search, t.Sound g → t.path = s.path →
        Result g [v] t (visit t v) ∧ visit' t v = some (visit t v)) →
      follow visit' vs s = some (vs.foldlM visit s)
  | [], _, _, _ => rfl
  | v :: vs, s, hs, hvisit => by
    obtain ⟨hone, heq⟩ := hvisit v List.mem_cons_self s hs rfl
    rw [follow, heq, List.foldlM_cons]
    cases hv : visit s v with
    | error cycle => rfl
    | ok mid =>
      rw [hv] at hone
      exact follow_eq vs mid hone.sound fun w hw t ht hpath =>
        hvisit w (List.mem_cons_of_mem _ hw) t ht (hpath.trans hone.path)

theorem getElem?_edges {v : Nat} (hv : v < g.order) : g.edges[v]? = some (g.targets v) := by
  unfold Digraph.targets
  rw [Array.getD_eq_getD_getElem?, Array.getElem?_eq_getElem hv]
  rfl

theorem lt_order_of_edge {v w : Nat} (h : g.Edge v w) : v < g.order := by
  by_contra hv
  unfold Digraph.Edge Digraph.targets at h
  rw [Array.getD_eq_getD_getElem?, Array.getElem?_eq_none (Nat.le_of_not_lt hv)] at h
  cases h

theorem explore_of_active {room : Nat} {s : Search} {v : Nat} {cycle : List Nat}
    (hv : s.visits[v]? = some .active) (hclose : s.closing? v = some cycle) :
    explore g room s v = some (.error cycle) := by
  rw [explore.eq_def, hv]
  show (s.closing? v >>= fun cycle => some (Except.error cycle)) = _
  rw [hclose]
  rfl

theorem explore_of_fresh {room : Nat} {s : Search} {v : Nat} (hv : v < g.order)
    (hfresh : s.visits[v]? = some .fresh) :
    explore g (room + 1) s v = (do
      match ← follow (explore g room) (g.targets v) (s.enter v) with
      | .error cycle => return .error cycle
      | .ok next => if v < next.visits.size then return .ok (next.leave v) else none) := by
  rw [explore, hfresh, getElem?_edges hv]
  rfl

/-- **One call of the search** finds all that it looks up: every vertex has a state and targets,
and there is room on the path for a vertex that is not on it. -/
theorem explore_eq (hg : g.Closed) : ∀ (room : Nat) (s : Search) (v : Nat), s.Sound g →
    v < g.order → g.order ≤ room + s.path.length →
    (v :: s.path).IsChain (fun v w => g.Edge w v) →
    explore g room s v = some (g.explore room s v) := by
  intro room
  induction room with
  | zero =>
    intro s v hs hv hroom hchain
    -- without room all vertices are on the path
    have hmem : v ∈ s.path := by
      by_contra hfresh
      have := hs.length_path_lt hv hfresh
      omega
    obtain ⟨cycle, hclose, -⟩ := hs.closing hmem hchain
    have hactive := (hs.active v).2 hmem
    rw [explore_of_active hactive hclose, Digraph.explore_of_active hactive hclose]
  | succ room ih =>
    intro s v hs hv hroom hchain
    have hlt : v < s.visits.size := by rw [hs.size]; exact hv
    have hlook : s.visits[v]? = some s.visits[v] := Array.getElem?_eq_getElem hlt
    cases hvisit : s.visits[v] with
    | done =>
      rw [hvisit] at hlook
      rw [explore_of_done hlook, explore, hlook]
      rfl
    | active =>
      rw [hvisit] at hlook
      obtain ⟨cycle, hclose, -⟩ := hs.closing ((hs.active v).1 hlook) hchain
      rw [explore_of_active hlook hclose, Digraph.explore_of_active hlook hclose]
    | fresh =>
      rw [hvisit] at hlook
      have henter := hs.enter hlook hchain
      -- the targets are followed with `v` on the path, and one place less to go
      have htargets : ∀ w ∈ g.targets v, ∀ t : Search, t.Sound g → t.path = (s.enter v).path →
          Result g [w] t (g.explore room t w) ∧ explore g room t w = some (g.explore room t w) := by
        intro w hw t ht hpath
        have hpath : t.path = v :: s.path := hpath
        have hgo : g.order ≤ room + t.path.length := by
          rw [hpath, List.length_cons]
          omega
        have hway : (w :: t.path).IsChain (fun v w => g.Edge w v) := by
          rw [hpath]
          exact List.isChain_cons_cons.2 ⟨hw, hchain⟩
        exact ⟨explore_result hg room t w ht (hg v w hw) hgo hway,
          ih t w ht (hg v w hw) hgo hway⟩
      have hfollow := follow_eq (g.targets v) (s.enter v) henter htargets
      have hresult := Result.foldlM (g.targets v) (s.enter v) henter fun w hw t ht hpath =>
        (htargets w hw t ht hpath).1
      rw [explore_of_fresh hv hlook, Digraph.explore_of_fresh hlook, hfollow]
      cases hnext : (g.targets v).foldlM (g.explore room) (s.enter v) with
      | error cycle => rfl
      | ok next =>
        rw [hnext] at hresult
        have hleave : v < next.visits.size := by rw [hresult.sound.size]; exact hv
        show (if v < next.visits.size then _ else _) = _
        rw [if_pos hleave]
        rfl

/-- Following several edges finds what it looks up also where more is found for each of them. -/
theorem follow_mono {visit visit' : Search → Nat → Option (Except (List Nat) Search)}
    (hvisit : ∀ s v result, visit s v = some result → visit' s v = some result) :
    ∀ (vs : List Nat) (s : Search) (result : Except (List Nat) Search),
      follow visit vs s = some result → follow visit' vs s = some result := by
  intro vs
  induction vs with
  | nil =>
    intro s result h
    exact h
  | cons v vs ih =>
    intro s result h
    rw [follow] at h
    obtain ⟨one, hone, h⟩ := Option.bind_eq_some_iff.1 h
    rw [follow, hvisit s v one hone]
    cases one with
    | error cycle => exact h
    | ok next => exact ih next result h

/-- **A call that has found all that it looks up comes to the same with more room.** -/
theorem explore_mono {room more : Nat} (hle : room ≤ more) :
    ∀ (s : Search) (v : Nat) (result : Except (List Nat) Search),
      explore g room s v = some result → explore g more s v = some result := by
  induction room generalizing more with
  | zero =>
    intro s v result h
    rw [explore] at h
    obtain ⟨visit, hvisit, h⟩ := Option.bind_eq_some_iff.1 h
    rw [explore.eq_def, hvisit]
    -- a fresh vertex would have needed room
    cases visit with
    | fresh => cases h
    | active => exact h
    | done => exact h
  | succ room ih =>
    intro s v result h
    obtain ⟨more, rfl⟩ : ∃ more', more = more' + 1 := ⟨more - 1, by omega⟩
    rw [explore] at h ⊢
    obtain ⟨visit, hvisit, h⟩ := Option.bind_eq_some_iff.1 h
    rw [hvisit]
    cases visit with
    | active => exact h
    | done => exact h
    | fresh =>
      obtain ⟨targets, htargets, h⟩ := Option.bind_eq_some_iff.1 h
      obtain ⟨inner, hinner, h⟩ := Option.bind_eq_some_iff.1 h
      have hmore := follow_mono (ih (Nat.le_of_succ_le_succ hle)) targets (s.enter v) inner hinner
      refine Option.bind_eq_some_iff.2 ⟨.fresh, rfl, ?_⟩
      refine Option.bind_eq_some_iff.2 ⟨targets, htargets, ?_⟩
      exact Option.bind_eq_some_iff.2 ⟨inner, hmore, h⟩

/-- **The calls from the first vertices** find all that they look up, however much room there is
beyond one place for each vertex. -/
theorem follow_searched (hg : g.Closed) {room count : Nat} (hroom : g.order ≤ room)
    (hcount : count ≤ g.order) :
    follow (explore g room) (List.range count) (.start g.order) = some (g.searched count) := by
  refine follow_eq _ _ (start_sound g) fun v hv t ht hpath => ?_
  have hpath : t.path = [] := hpath
  have hlt : v < g.order := Nat.lt_of_lt_of_le (List.mem_range.1 hv) hcount
  have hway : (v :: t.path).IsChain (fun v w => g.Edge w v) := by
    rw [hpath]
    exact List.isChain_singleton v
  have hfound := explore_eq hg g.order t v ht hlt (by omega) hway
  exact ⟨explore_result hg g.order t v ht hlt (by omega) hway, explore_mono hroom t v _ hfound⟩

/-- **The search for a cycle** finds all that it looks up. -/
theorem findCycle_eq (hg : g.Closed) : findCycle g = some g.findCycle? := by
  unfold findCycle
  rw [follow_searched hg (Nat.le_refl _) (Nat.le_refl _)]
  unfold Digraph.findCycle? searched
  cases (List.range g.order).foldlM (g.explore g.order) (.start g.order) <;> rfl

end Checked

namespace Checked

variable {arena : Arena} {known : Nullability} {id : NodeId} {place : Nat} {rid : RuleId}

theorem ruleName_eq (h : rid < arena.rules.size) :
    ruleName arena rid = some (((arena.rule? rid).map Rule.name).getD "") := by
  rw [ruleName, Arena.rule?, Array.getElem?_eq_getElem h]
  rfl

/-- **The check that a grammar goes through** finds all that it looks up, the names of the rules
of a cycle included. -/
theorem cycle_eq (hwf : arena.WellFormed) :
    cycle arena = some (arena.leadsTo.findCycle?.map (Builder.cycleNames arena)) := by
  have hclosed := Arena.leadsTo_closed hwf
  unfold cycle
  rw [leadsTo_eq hwf]
  show (findCycle arena.leadsTo >>= _) = _
  rw [findCycle_eq hclosed]
  cases hcycle : arena.leadsTo.findCycle? with
  | none => rfl
  | some found =>
    have hnames : ∀ id ∈ found, (ruleName arena id).isSome = true := by
      intro id hid
      obtain ⟨w, -, hedge⟩ := (Digraph.findCycle?_eq_some hclosed hcycle).exists_edge hid
      have hlt := lt_order_of_edge hedge
      rw [Arena.order_leadsTo] at hlt
      rw [ruleName_eq hlt]
      rfl
    show (found.mapM (ruleName arena) >>= _) = _
    rw [mapM_eq_some_filterMap hnames]
    rfl

/-- **A node is written** with every lookup checked, and without end is none of them: the parts of
a sequence stand before it. -/
theorem writtenNode_eq (hwf : arena.WellFormed) (hplace : place < arena.nodes.size) :
    writtenNode arena place = some (arena.writtenNode place) := by
  induction place using Nat.strong_induction_on with
  | _ place ih =>
    obtain ⟨node, hnode⟩ : ∃ node, arena.nodes[place]? = some node :=
      ⟨_, Array.getElem?_eq_getElem hplace⟩
    rw [writtenNode, Arena.writtenNode]
    simp only [hnode]
    cases node with
    | primitive p => rfl
    | rule id => exact ruleName_eq (hwf.rule_lt place id hnode)
    | sequence children =>
      have hlt := hwf.child_lt place children hnode
      cases children with
      | nil => rfl
      | cons first rest =>
        have hpart : ∀ child ∈ first :: rest,
            (if _h : child.index < place then do
              let node ← arena.node? child
              let part ← writtenNode arena child.index
              return if node.isSequence then "( " ++ part ++ " )" else part
            else none) =
              some (if _h : child.index < place then
                if (arena.node? child).any Node.isSequence then
                  "( " ++ arena.writtenNode child.index ++ " )"
                else arena.writtenNode child.index
              else "") := by
          intro child hc
          have hc := hlt child hc
          obtain ⟨part, hpart⟩ := Arena.exists_node (Nat.lt_trans hc hplace)
          rw [dif_pos hc, dif_pos hc, ih child.index hc (Nat.lt_trans hc hplace), hpart]
          rfl
        show ((first :: rest).mapM _ >>= _) = _
        rw [mapM_eq_some_map hpart]
        rfl

theorem writtenRule_eq (hwf : arena.WellFormed) {rule : Rule}
    (hrule : arena.rule? rid = some rule) :
    writtenRule arena rule = some (arena.writtenRule rule) := by
  unfold writtenRule Arena.writtenRule
  rw [mapM_eq_some_map fun id hid =>
    writtenNode_eq hwf (hwf.alternative_lt rid rule hrule id hid)]
  rfl

/-- **A grammar is written** with every lookup checked. -/
theorem written_eq (hwf : arena.WellFormed) {root : NodeId}
    (hroot : root.index < arena.nodes.size) : written arena root = some (arena.written root) := by
  have hrules : ∀ rule ∈ arena.rules.toList,
      writtenRule arena rule = some (arena.writtenRule rule) := by
    intro rule hrule
    obtain ⟨rid, hrid⟩ := List.getElem?_of_mem hrule
    rw [Array.getElem?_toList] at hrid
    exact writtenRule_eq hwf hrid
  obtain ⟨node, hnode⟩ := Arena.exists_node hroot
  unfold written Arena.written
  rw [hnode, mapM_eq_some_map hrules, writtenNode_eq hwf hroot]
  cases node <;> rfl

section Names

variable {grammar : Grammar} (hwf : grammar.arena.WellFormed) (name : String)
include hwf

/-- **The rule of a name** and its node are found. -/
theorem ruleNode_eq : ruleNode grammar name = some (grammar.ruleNode? name) := by
  unfold ruleNode Grammar.ruleNode?
  cases hid : grammar.arena.ruleNamed? name with
  | none => rfl
  | some id =>
    obtain ⟨rule, hrule, -⟩ := (hwf.names name id).1 hid
    simp only [hrule]
    show _ = some (grammar.arena.rule? id >>= _)
    rw [hrule]
    rfl

/-- **The tokenizer of a rule** is found, with the kind of each of its alternatives. -/
theorem tokenizer_eq : tokenizer grammar name = some (grammar.tokenizer name) := by
  unfold tokenizer Grammar.tokenizer
  cases hid : grammar.arena.ruleNamed? name with
  | none => rfl
  | some id =>
    obtain ⟨rule, hrule, -⟩ := (hwf.names name id).1 hid
    have hkinds : ∀ item ∈ rule.alternatives.zipIdx,
        tokenKind grammar.arena name item.2 item.1 =
          some (grammar.arena.tokenKind name item.2 item.1) := by
      rintro ⟨alternative, place⟩ hitem
      have ha := hwf.alternative_lt id rule hrule alternative (List.fst_mem_of_mem_zipIdx hitem)
      obtain ⟨node, hnode⟩ := Arena.exists_node ha
      unfold tokenKind Arena.tokenKind
      rw [hnode]
      cases node with
      | primitive p => rfl
      | sequence children => rfl
      | rule kind => exact ruleName_eq (hwf.rule_lt alternative.index kind hnode)
    simp only [hrule]
    show (rule.alternatives.zipIdx.mapM (fun item => tokenKind grammar.arena name item.2 item.1)
      >>= _) = _
    rw [mapM_eq_some_map hkinds]
    show some (Except.ok (Tokenizer.mk grammar id _)) = _
    rw [List.mapIdx_eq_zipIdx_map]
    rfl

end Names

end Checked

end Packrat
