import Packrat.Arena.Nullable
import Mathlib.Logic.Function.Iterate
import Mathlib.Tactic.Common

/-!
# The nullable nodes are a fixpoint

Each step of a pass adds a flag that follows from those already there, or changes nothing
(`markNode_eq_or_lt`, `markRule_eq_or_lt`). So flags stay justified while there are more of them
(`Justified`), and where a pass finds nothing new each of its steps changed nothing
(`foldl_idle`).

* `Arena.nullability_fixed`: a node or a rule of the arena has its flag exactly when its parts
  or alternatives call for it.
* `settle_eq_iterate`: **how often a pass is made.**
* `Arena.nullability_le`: **no flag is there that could be missing.**
-/

namespace Packrat.Nullability

variable {arena : Arena} {known next : Nullability}

/-- `next` has all the flags of `known`. -/
structure Le (known next : Nullability) : Prop where
  node : ∀ id : NodeId, known.node id = true → next.node id = true
  rule : ∀ id, known.rule id = true → next.rule id = true

theorem Le.ofNode (h : Le known next) {node : Node} (hn : known.ofNode node = true) :
    next.ofNode node = true := by
  cases node with
  | primitive p => exact hn
  | sequence children =>
    simp only [Nullability.ofNode, List.all_eq_true] at hn ⊢
    exact fun child hc => h.node child (hn child hc)
  | rule id => exact h.rule id hn

theorem Le.ofRule (h : Le known next) {rule : Rule} (hr : known.ofRule rule = true) :
    next.ofRule rule = true := by
  simp only [Nullability.ofRule, List.any_eq_true] at hr ⊢
  obtain ⟨alternative, ha, hn⟩ := hr
  exact ⟨alternative, ha, h.node alternative hn⟩

/-- A flag after one was set is there before, or is the one that was set. -/
theorem getD_setIfInBounds (flags : Array Bool) (place i : Nat) :
    (flags.setIfInBounds place true).getD i false =
      (flags.getD i false || decide (i = place ∧ place < flags.size)) := by
  simp only [Array.getD_eq_getD_getElem?, Array.getElem?_setIfInBounds]
  by_cases h : place = i
  · subst h
    by_cases hlt : place < flags.size <;> simp [hlt]
  · simp [h, Ne.symm h]

theorem node_setIfInBounds (known : Nullability) (place : Nat) (id : NodeId) :
    Nullability.node { known with nodes := known.nodes.setIfInBounds place true } id =
      (known.node id || decide (id.index = place ∧ place < known.nodes.size)) :=
  getD_setIfInBounds known.nodes place id.index

theorem rule_setIfInBounds (known : Nullability) (place id : Nat) :
    Nullability.rule { known with rules := known.rules.setIfInBounds place true } id =
      (known.rule id || decide (id = place ∧ place < known.rules.size)) :=
  getD_setIfInBounds known.rules place id

theorem le_markNode (known : Nullability) (node : Node) (place : Nat) :
    Le known (known.markNode node place) := by
  unfold markNode
  split
  · exact ⟨fun id h => by rw [node_setIfInBounds, h, Bool.true_or], fun _ h => h⟩
  · exact ⟨fun _ h => h, fun _ h => h⟩

theorem le_markRule (known : Nullability) (rule : Rule) (id : RuleId) :
    Le known (known.markRule rule id) := by
  unfold markRule
  split
  · exact ⟨fun _ h => h, fun id h => by rw [rule_setIfInBounds, h, Bool.true_or]⟩
  · exact ⟨fun _ h => h, fun _ h => h⟩

/-- Setting one flag changes nothing or leaves fewer flags unset. -/
theorem setIfInBounds_eq_or_count_lt (flags : Array Bool) (place : Nat) :
    flags.setIfInBounds place true = flags ∨
      (flags.setIfInBounds place true).count false < flags.count false := by
  by_cases hlt : place < flags.size
  · cases hflag : flags[place] with
    | true =>
      left
      rw [Array.setIfInBounds, dif_pos hlt, ← hflag, Array.set_getElem_self]
    | false =>
      right
      have hpos : 0 < flags.count false := by
        rw [Array.count_pos_iff, ← hflag]; exact Array.getElem_mem hlt
      rw [Array.setIfInBounds, dif_pos hlt, Array.count_set, hflag]
      simp only [beq_self_eq_true, if_true, Bool.true_eq_false, beq_iff_eq, if_false]
      omega
  · left
    rw [Array.setIfInBounds, dif_neg hlt]

theorem markNode_eq_or_lt (known : Nullability) (node : Node) (place : Nat) :
    known.markNode node place = known ∨ (known.markNode node place).unknown < known.unknown := by
  unfold markNode
  split
  · rcases setIfInBounds_eq_or_count_lt known.nodes place with h | h
    · left; rw [h]
    · right; simp only [unknown]; omega
  · exact Or.inl rfl

theorem markRule_eq_or_lt (known : Nullability) (rule : Rule) (id : RuleId) :
    known.markRule rule id = known ∨ (known.markRule rule id).unknown < known.unknown := by
  unfold markRule
  split
  · rcases setIfInBounds_eq_or_count_lt known.rules id with h | h
    · left; rw [h]
    · right; simp only [unknown]; omega
  · exact Or.inl rfl

/-- Steps that change nothing or leave fewer flags unset never leave more of them unset. -/
theorem unknown_foldl_le {α : Type} {step : Nullability → α → Nullability}
    (hstep : ∀ known x, step known x = known ∨ (step known x).unknown < known.unknown) :
    ∀ (xs : List α) (known : Nullability), (xs.foldl step known).unknown ≤ known.unknown
  | [], _ => Nat.le_refl _
  | x :: xs, known => by
    have hrest := unknown_foldl_le hstep xs (step known x)
    rw [List.foldl_cons]
    rcases hstep known x with h | h
    · rw [h] at hrest ⊢; exact hrest
    · omega

/-- Where such steps find nothing new, each of them changes nothing. -/
theorem foldl_idle {α : Type} {step : Nullability → α → Nullability}
    (hstep : ∀ known x, step known x = known ∨ (step known x).unknown < known.unknown) :
    ∀ (xs : List α) (known : Nullability), known.unknown ≤ (xs.foldl step known).unknown →
      xs.foldl step known = known ∧ ∀ x ∈ xs, step known x = known
  | [], _, _ => ⟨rfl, by simp⟩
  | x :: xs, known, hle => by
    rw [List.foldl_cons] at hle ⊢
    have hrest := unknown_foldl_le hstep xs (step known x)
    rcases hstep known x with h | h
    · rw [h] at hle ⊢
      obtain ⟨h1, h2⟩ := foldl_idle hstep xs known hle
      exact ⟨h1, List.forall_mem_cons.2 ⟨h, h2⟩⟩
    · omega

/-- Every flag is called for by the flags that are there, and there is one flag for each node and
rule. -/
structure Justified (arena : Arena) (known : Nullability) : Prop where
  nodes_size : known.nodes.size = arena.nodes.size
  rules_size : known.rules.size = arena.rules.size
  node : ∀ (id : NodeId) (node : Node), arena.node? id = some node → known.node id = true →
    known.ofNode node = true
  rule : ∀ (id : RuleId) (rule : Rule), arena.rule? id = some rule → known.rule id = true →
    known.ofRule rule = true

theorem node_initial (arena : Arena) (id : NodeId) : (initial arena).node id = false := by
  simp only [initial, Nullability.node, Array.getD_eq_getD_getElem?, Array.getElem?_map]
  cases arena.nodes[id.index]? <;> rfl

theorem rule_initial (arena : Arena) (id : RuleId) : (initial arena).rule id = false := by
  simp only [initial, Nullability.rule, Array.getD_eq_getD_getElem?, Array.getElem?_map]
  cases arena.rules[id]? <;> rfl

/-- At first no flag is set. -/
theorem initial_le (arena : Arena) (known : Nullability) : Le (initial arena) known :=
  ⟨fun id h => by simp [node_initial] at h, fun id h => by simp [rule_initial] at h⟩

theorem initial_justified (arena : Arena) : Justified arena (initial arena) :=
  ⟨by simp [initial], by simp [initial], fun id _ _ h => by simp [node_initial] at h,
    fun id _ _ h => by simp [rule_initial] at h⟩

theorem Justified.markNode (h : Justified arena known) {node : Node} {place : Nat}
    (hplace : arena.nodes[place]? = some node) : Justified arena (known.markNode node place) := by
  have hle := le_markNode known node place
  by_cases hof : known.ofNode node = true
  · have hmark : known.markNode node place =
        { known with nodes := known.nodes.setIfInBounds place true } := by
      rw [Nullability.markNode, if_pos hof]
    refine ⟨by rw [hmark]; simp [h.nodes_size], by rw [hmark]; exact h.rules_size, ?_, ?_⟩
    -- an old flag stays justified as there are more of them, and the new one was called for
    · intro id other hother hflag
      rw [hmark, node_setIfInBounds, Bool.or_eq_true, decide_eq_true_eq] at hflag
      rcases hflag with hflag | ⟨rfl, -⟩
      · exact hle.ofNode (h.node id other hother hflag)
      · rw [Arena.node?, hplace] at hother
        cases hother
        exact hle.ofNode hof
    · intro id rule hrule hflag
      rw [hmark] at hflag
      exact hle.ofRule (h.rule id rule hrule hflag)
  · rw [Nullability.markNode, if_neg hof]; exact h

theorem Justified.markRule (h : Justified arena known) {rule : Rule} {id : RuleId}
    (hid : arena.rules[id]? = some rule) : Justified arena (known.markRule rule id) := by
  have hle := le_markRule known rule id
  by_cases hof : known.ofRule rule = true
  · have hmark : known.markRule rule id =
        { known with rules := known.rules.setIfInBounds id true } := by
      rw [Nullability.markRule, if_pos hof]
    refine ⟨by rw [hmark]; exact h.nodes_size, by rw [hmark]; simp [h.rules_size], ?_, ?_⟩
    · intro id node hnode hflag
      rw [hmark] at hflag
      exact hle.ofNode (h.node id node hnode hflag)
    · intro other otherRule hother hflag
      rw [hmark, rule_setIfInBounds, Bool.or_eq_true, decide_eq_true_eq] at hflag
      rcases hflag with hflag | ⟨rfl, -⟩
      · exact hle.ofRule (h.rule other otherRule hother hflag)
      · rw [Arena.rule?, hid] at hother
        cases hother
        exact hle.ofRule hof
  · rw [Nullability.markRule, if_neg hof]; exact h

/-- A pass keeps flags justified. -/
theorem Justified.pass (h : Justified arena known) : Justified arena (pass arena known) := by
  unfold Nullability.pass
  refine List.foldlRecOn _ _ (List.foldlRecOn _ _ h ?_) ?_
  · rintro known h ⟨node, place⟩ hmem
    rw [List.mk_mem_zipIdx_iff_getElem?, Array.getElem?_toList] at hmem
    exact h.markNode hmem
  · rintro known h ⟨rule, id⟩ hmem
    rw [List.mk_mem_zipIdx_iff_getElem?, Array.getElem?_toList] at hmem
    exact h.markRule hmem

/-- A node or a rule has its flag exactly when the flags of its parts or alternatives call for
it. -/
structure Fixed (arena : Arena) (known : Nullability) : Prop where
  node : ∀ (id : NodeId) (node : Node), arena.node? id = some node →
    (known.node id = true ↔ known.ofNode node = true)
  rule : ∀ (id : RuleId) (rule : Rule), arena.rule? id = some rule →
    (known.rule id = true ↔ known.ofRule rule = true)

/-- Where a pass finds nothing new all flags that are called for are there. -/
theorem Justified.fixed (h : Justified arena known)
    (hidle : known.unknown ≤ (Nullability.pass arena known).unknown) : Fixed arena known := by
  set markNodes := fun known (item : Node × Nat) => Nullability.markNode known item.1 item.2
  set markRules := fun known (item : Rule × Nat) => Nullability.markRule known item.1 item.2
  have hnodes : ∀ known item, markNodes known item = known ∨
      (markNodes known item).unknown < known.unknown := fun _ _ => markNode_eq_or_lt _ _ _
  have hrules : ∀ known item, markRules known item = known ∨
      (markRules known item).unknown < known.unknown := fun _ _ => markRule_eq_or_lt _ _ _
  have hpass : Nullability.pass arena known = arena.rules.toList.zipIdx.foldl markRules
      (arena.nodes.toList.zipIdx.foldl markNodes known) := rfl
  rw [hpass] at hidle
  -- the rules leave no more unset than the nodes do, so neither half of the pass found anything
  have hle := unknown_foldl_le hrules arena.rules.toList.zipIdx
    (arena.nodes.toList.zipIdx.foldl markNodes known)
  obtain ⟨hsame, hnode⟩ := foldl_idle hnodes _ known (Nat.le_trans hidle hle)
  rw [hsame] at hidle
  obtain ⟨-, hrule⟩ := foldl_idle hrules _ known hidle
  refine ⟨fun id node hn => ⟨h.node id node hn, fun hof => ?_⟩,
    fun id rule hr => ⟨h.rule id rule hr, fun hof => ?_⟩⟩
  · have hmem : (node, id.index) ∈ arena.nodes.toList.zipIdx := by
      rw [List.mk_mem_zipIdx_iff_getElem?, Array.getElem?_toList]; exact hn
    have hmark : known.markNode node id.index = known := hnode _ hmem
    have hlt : id.index < known.nodes.size := by
      rw [h.nodes_size]; exact (Array.getElem?_eq_some_iff.1 hn).1
    rw [← hmark, Nullability.markNode, if_pos hof, node_setIfInBounds]
    simp [hlt]
  · have hmem : (rule, id) ∈ arena.rules.toList.zipIdx := by
      rw [List.mk_mem_zipIdx_iff_getElem?, Array.getElem?_toList]; exact hr
    have hmark : known.markRule rule id = known := hrule _ hmem
    have hlt : id < known.rules.size := by
      rw [h.rules_size]; exact (Array.getElem?_eq_some_iff.1 hr).1
    rw [← hmark, Nullability.markRule, if_pos hof, rule_setIfInBounds]
    simp [hlt]

theorem Justified.settle (h : Justified arena known) :
    Fixed arena (Nullability.settle arena known) := by
  induction known using WellFounded.induction (measure Nullability.unknown).wf with
  | _ known ih =>
    rw [Nullability.settle]
    split
    · rename_i hlt
      exact ih _ hlt h.pass
    · rename_i hlt
      exact h.fixed (by omega)

/-- At first one flag is unset for each node and rule. -/
theorem unknown_initial (arena : Arena) :
    (initial arena).unknown = arena.nodes.size + arena.rules.size := by
  simp [initial, unknown, Array.map_const']

theorem foldl_eq_or_lt {α : Type} {step : Nullability → α → Nullability}
    (hstep : ∀ known x, step known x = known ∨ (step known x).unknown < known.unknown)
    (xs : List α) (known : Nullability) :
    xs.foldl step known = known ∨ (xs.foldl step known).unknown < known.unknown := by
  by_cases hless : (xs.foldl step known).unknown < known.unknown
  · exact .inr hless
  · exact .inl (foldl_idle hstep xs known (Nat.le_of_not_lt hless)).1

/-- A pass changes nothing or leaves fewer flags unset. -/
theorem pass_eq_or_lt (arena : Arena) (known : Nullability) :
    pass arena known = known ∨ (pass arena known).unknown < known.unknown := by
  unfold pass
  have hnodes := foldl_eq_or_lt (fun known (item : Node × Nat) =>
    markNode_eq_or_lt known item.1 item.2) arena.nodes.toList.zipIdx known
  have hrules := foldl_eq_or_lt (fun known (item : Rule × Nat) =>
    markRule_eq_or_lt known item.1 item.2) arena.rules.toList.zipIdx
      (arena.nodes.toList.zipIdx.foldl (fun known item => known.markNode item.1 item.2) known)
  rcases hnodes with hnodes | hnodes
  · rw [hnodes] at hrules ⊢
    exact hrules
  · rcases hrules with hrules | hrules
    · rw [hrules]
      exact .inr hnodes
    · exact .inr (Nat.lt_trans hrules hnodes)

/-- **How often a pass is made**: so often that each time fewer flags are left unset, and once more
to see that nothing is left to be found. -/
theorem settle_eq_iterate (arena : Arena) (known : Nullability) :
    ∃ passes ≤ known.unknown,
      settle arena known = (pass arena)^[passes] known ∧
      (∀ i < passes, ((pass arena)^[i + 1] known).unknown < ((pass arena)^[i] known).unknown) ∧
      (pass arena)^[passes + 1] known = (pass arena)^[passes] known := by
  induction known using WellFounded.induction (measure unknown).wf with
  | _ known ih =>
    rw [settle]
    by_cases hless : (pass arena known).unknown < known.unknown
    · obtain ⟨passes, hle, hsettle, hfewer, hlast⟩ := ih (pass arena known) hless
      refine ⟨passes + 1, by omega, ?_, fun i hi => ?_, hlast⟩
      · rw [if_pos hless, hsettle]
        rfl
      · cases i with
        | zero => exact hless
        | succ i => exact hfewer i (by omega)
    · refine ⟨0, Nat.zero_le _, if_neg hless, by simp, ?_⟩
      exact (pass_eq_or_lt arena known).resolve_right hless

/-- What passes keep is true of what they come to. -/
theorem settle_induction {P : Nullability → Prop} (hpass : ∀ known, P known → P (pass arena known))
    (h : P known) : P (settle arena known) := by
  obtain ⟨passes, -, hsettle, -⟩ := settle_eq_iterate arena known
  rw [hsettle]
  exact Function.Iterate.rec P h hpass passes

/-- Whatever the flags call for is there, and more may be. -/
structure Closed (arena : Arena) (known : Nullability) : Prop where
  node : ∀ (id : NodeId) (node : Node), arena.node? id = some node → known.ofNode node = true →
    known.node id = true
  rule : ∀ (id : RuleId) (rule : Rule), arena.rule? id = some rule → known.ofRule rule = true →
    known.rule id = true

theorem Closed.markNode_le (h : Closed arena known) (hle : Le next known) {node : Node}
    {place : Nat} (hplace : arena.nodes[place]? = some node) :
    Le (next.markNode node place) known := by
  unfold markNode
  split
  · rename_i hof
    refine ⟨fun id hflag => ?_, hle.rule⟩
    rw [node_setIfInBounds, Bool.or_eq_true, decide_eq_true_eq] at hflag
    rcases hflag with hflag | ⟨rfl, -⟩
    · exact hle.node id hflag
    · exact h.node id node hplace (hle.ofNode hof)
  · exact hle

theorem Closed.markRule_le (h : Closed arena known) (hle : Le next known) {rule : Rule}
    {id : RuleId} (hid : arena.rules[id]? = some rule) : Le (next.markRule rule id) known := by
  unfold markRule
  split
  · rename_i hof
    refine ⟨hle.node, fun other hflag => ?_⟩
    rw [rule_setIfInBounds, Bool.or_eq_true, decide_eq_true_eq] at hflag
    rcases hflag with hflag | ⟨rfl, -⟩
    · exact hle.rule other hflag
    · exact h.rule other rule hid (hle.ofRule hof)
  · exact hle

/-- A pass does not go beyond flags that have all that they call for. -/
theorem Closed.pass_le (h : Closed arena known) (hle : Le next known) :
    Le (pass arena next) known := by
  unfold pass
  refine List.foldlRecOn (motive := (Le · known)) _ _
    (List.foldlRecOn (motive := (Le · known)) _ _ hle ?_) ?_
  · rintro next hle ⟨node, place⟩ hmem
    rw [List.mk_mem_zipIdx_iff_getElem?, Array.getElem?_toList] at hmem
    exact h.markNode_le hle hmem
  · rintro next hle ⟨rule, id⟩ hmem
    rw [List.mk_mem_zipIdx_iff_getElem?, Array.getElem?_toList] at hmem
    exact h.markRule_le hle hmem

theorem Fixed.closed (h : Fixed arena known) : Closed arena known :=
  ⟨fun id node hnode => (h.node id node hnode).2, fun id rule hrule => (h.rule id rule hrule).2⟩

/-- Flags that are in each other are the same, if there are equally many. -/
theorem Le.antisymm (hle : Le known next) (hge : Le next known)
    (hnodes : known.nodes.size = next.nodes.size) (hrules : known.rules.size = next.rules.size) :
    known = next := by
  have hflags : ∀ {flags flags' : Array Bool}, flags.size = flags'.size →
      (∀ i, flags.getD i false = true ↔ flags'.getD i false = true) → flags = flags' := by
    intro flags flags' hsize hsame
    refine Array.ext hsize fun i hi hi' => ?_
    have hi := hsame i
    rwa [Array.getD_eq_getD_getElem?, Array.getD_eq_getD_getElem?,
      Array.getElem?_eq_getElem ‹_›, Array.getElem?_eq_getElem ‹_›, Option.getD_some,
      Option.getD_some, ← Bool.eq_iff_iff] at hi
  obtain ⟨nodes, rules⟩ := known
  obtain ⟨nodes', rules'⟩ := next
  rw [mk.injEq]
  exact ⟨hflags hnodes fun i => ⟨hle.node ⟨i, 0⟩, hge.node ⟨i, 0⟩⟩,
    hflags hrules fun i => ⟨hle.rule i, hge.rule i⟩⟩

end Packrat.Nullability

namespace Packrat

/-- **The nullable nodes and rules are a fixpoint.** -/
theorem Arena.nullability_fixed (arena : Arena) : Nullability.Fixed arena arena.nullability :=
  (Nullability.initial_justified arena).settle

/-- There is one flag for each node and rule, and each is called for. -/
theorem Arena.nullability_justified (arena : Arena) :
    Nullability.Justified arena arena.nullability :=
  Nullability.settle_induction (fun _ => Nullability.Justified.pass)
    (Nullability.initial_justified arena)

/-- **The nullable nodes and rules are the least** that have all that they call for. -/
theorem Arena.nullability_le {arena : Arena} {known : Nullability}
    (h : Nullability.Closed arena known) : Nullability.Le arena.nullability known :=
  Nullability.settle_induction (P := (Nullability.Le · known)) (fun _ => h.pass_le)
    (Nullability.initial_le arena known)

/-- Arenas of the same size have the same nullable nodes and rules, if those of each have all that
they call for in the other. -/
theorem Arena.nullability_eq_of_closed {arena arena' : Arena}
    (hnodes : arena.nodes.size = arena'.nodes.size) (hrules : arena.rules.size = arena'.rules.size)
    (h : Nullability.Closed arena arena'.nullability)
    (h' : Nullability.Closed arena' arena.nullability) :
    arena.nullability = arena'.nullability := by
  have hsizes := arena.nullability_justified
  have hsizes' := arena'.nullability_justified
  refine (Arena.nullability_le h).antisymm (Arena.nullability_le h') ?_ ?_
  · rw [hsizes.nodes_size, hsizes'.nodes_size, hnodes]
  · rw [hsizes.rules_size, hsizes'.rules_size, hrules]

end Packrat
