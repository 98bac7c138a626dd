import Mathlib.Algebra.GroupWithZero.Nat
import Mathlib.Data.List.Nodup
import Packrat.Memo.Ledger
import Packrat.Proofs.Surveying
import Packrat.Proofs.TableReading

/-!
# Tables and their ledgers

A table holds a rule together with all that the rule asks for (`Table.Complete`), so finding a rule
leaves nothing to be settled, and settling one adds what its survey lists. No rule asks for itself
on the way, so each one is settled before it has an entry.

* `evalNode_audited`: a ledger changes nothing.
* `Memo.InOrder`: what a table and its ledger say of each other.
* `Accounts`: what becomes of them by an evaluation with a survey; `Accounts.found` and
  `Accounts.settled` for a rule that is asked for.
* `evalNode_accounts`: **an evaluation enters the keys of its survey, and no key twice.**
-/

namespace Packrat

open Evaluation

/-- Without its ledger the first computation is the second one. -/
def withoutLedger : Simulation Audited Memoized where
  Rel x y := ∀ audit a progress, y.run audit.progress = .ok (a, progress) ↔
    ∃ ledger, x.run audit = .ok (a, ⟨progress, ledger⟩)
  pure a := by
    intro audit b progress
    constructor
    · intro h
      obtain ⟨rfl, rfl⟩ := run_pure_eq_ok.1 h
      exact ⟨audit.ledger, rfl⟩
    · rintro ⟨ledger, h⟩
      cases h
      rfl
  bind hxy hfg := by
    intro audit b progress
    constructor
    · intro h
      obtain ⟨a, inner, hy, hg⟩ := run_bind_eq_ok.1 h
      obtain ⟨ledger, hx⟩ := (hxy audit a inner).1 hy
      obtain ⟨ledger', hf⟩ := (hfg a ⟨inner, ledger⟩ b progress).1 hg
      exact ⟨ledger', run_bind_eq_ok.2 ⟨a, _, hx, hf⟩⟩
    · rintro ⟨ledger', h⟩
      obtain ⟨a, ⟨inner, ledger⟩, hx, hf⟩ := run_bind_eq_ok.1 h
      have hy := (hxy audit a inner).2 ⟨ledger, hx⟩
      exact run_bind_eq_ok.2 ⟨a, inner, hy, (hfg a ⟨inner, ledger⟩ b progress).2 ⟨ledger', hf⟩⟩
  fault e := by
    intro audit a progress
    constructor
    · intro h
      cases h
    · rintro ⟨ledger, h⟩
      cases h
  tried offset outcome := by
    intro audit a progress
    constructor
    · intro h
      obtain ⟨rfl, rfl⟩ := run_pure_eq_ok.1 h
      exact ⟨audit.ledger, rfl⟩
    · rintro ⟨ledger, h⟩
      cases h
      rfl
  reach index := by
    intro audit a progress
    constructor
    · intro h
      cases h
      exact ⟨audit.ledger, rfl⟩
    · rintro ⟨ledger, h⟩
      cases h
      rfl

/-- **A ledger changes nothing**: not what an evaluation comes to, and not the table. -/
theorem evalNode_audited {arena : Arena} {input : Input} {mode : Mode} (depth : Nat) (id : NodeId)
    (pos : Nat) :
    withoutLedger.Rel (evalNode arena input mode depth id pos)
      (evalNode arena input mode depth id pos) := by
  induction depth generalizing id pos with
  | zero => exact withoutLedger.fault _
  | succ depth ih =>
    refine withoutLedger.evalNode_succ ?_ ih id pos
    intro rid rule pos hrule hbody audit resolution progress
    show Memoized.settle _ _ audit.progress = _ ↔ ∃ ledger, Audited.settle _ _ audit = _
    unfold Memoized.settle Audited.settle
    cases audit.progress.table.lookup? ⟨rid, pos, mode⟩ with
    | some found =>
      constructor
      · intro h
        cases h
        exact ⟨_, rfl⟩
      · rintro ⟨ledger, h⟩
        cases h
        rfl
    | none =>
      have hinner := hbody ⟨⟨pos, audit.progress.table⟩, audit.ledger⟩
      simp only [StateT.run] at hinner
      constructor
      · intro h
        simp only at h
        split at h
        · cases h
        · rename_i found inner hrun
          cases h
          obtain ⟨ledger, hrun'⟩ := (hinner _ _).1 hrun
          simp only [hrun']
          exact ⟨_, rfl⟩
      · rintro ⟨ledger, h⟩
        simp only at h
        split at h
        · cases h
        · rename_i found farthest table ledger' hrun
          cases h
          simp only [(hinner _ _).2 ⟨_, hrun⟩]

namespace Memo

variable {arena : Arena} {input : Input} {table : Table} {ledger : Ledger} {key : Key}
  {entry : Entry}

/-- Beside a rule the table holds all that the rule asks for. -/
def Table.Complete (arena : Arena) (input : Input) (table : Table) : Prop :=
  ∀ (key : Key) (entry : Entry), table.entries[key]? = some entry →
    ∃ survey, arena.Surveys input key entry.value survey ∧
      ∀ other ∈ survey.all, other ∈ table.entries

/-- A table and its ledger, from the time when both were empty: every miss made one entry, every
entry is that of a miss, and whatever was asked for was found or settled. -/
structure InOrder (arena : Arena) (input : Input) (table : Table) (ledger : Ledger) : Prop where
  complete : table.Complete arena input
  absent : ∀ miss ∈ ledger.misses, miss.present = false
  nodup : (ledger.misses.map Miss.key).Nodup
  mem_iff : ∀ key, key ∈ table.entries ↔ key ∈ ledger.misses.map Miss.key
  size_eq : ledger.misses.length = table.size
  asked_eq : table.hits + table.size = ledger.asked

theorem inOrder_empty (arena : Arena) (input : Input) : InOrder arena input .empty .empty := by
  refine ⟨?_, ?_, List.nodup_nil, ?_, rfl, rfl⟩
  · intro key entry h
    simp [Table.empty] at h
  · intro miss h
    cases h
  · intro key
    simp [Table.empty, Ledger.empty]

theorem Table.lookup?_eq_none : table.lookup? key = none ↔ key ∉ table.entries := by
  unfold Table.lookup?
  rw [Std.TreeMap.mem_iff_isSome_getElem?]
  cases table.entries[key]? <;> simp

/-- The rule of every entry has a survey. -/
theorem InOrder.exists_surveys (h : InOrder arena input table ledger) (hkey : key ∈ table.entries) :
    ∃ resolution survey, arena.Surveys input key resolution survey := by
  rw [Std.TreeMap.mem_iff_isSome_getElem?] at hkey
  obtain ⟨entry, hentry⟩ := Option.isSome_iff_exists.1 hkey
  obtain ⟨survey, hsurvey, -⟩ := h.complete key entry hentry
  exact ⟨entry.value, survey, hsurvey⟩

/-- An entry that is found leaves everything in order. -/
theorem InOrder.found (h : InOrder arena input table ledger) {next : Table}
    (hfound : table.lookup? key = some (entry, next)) :
    InOrder arena input next ledger.found := by
  obtain ⟨hentry, hentries⟩ := Table.lookup?_eq_some hfound
  have hhits : next.hits = table.hits + 1 := by
    unfold Table.lookup? at hfound
    rw [hentry] at hfound
    cases hfound
    rfl
  have hsize : next.size = table.size := by rw [Table.size, hentries, Table.size]
  refine ⟨?_, h.absent, h.nodup, ?_, ?_, ?_⟩
  · intro other found hother
    rw [hentries] at hother ⊢
    exact h.complete other found hother
  · intro other
    rw [hentries]
    exact h.mem_iff other
  · rw [hsize]
    exact h.size_eq
  · have := h.asked_eq
    rw [hsize, hhits]
    show table.hits + 1 + table.size = ledger.asked + 1
    omega

theorem Table.mem_record {other : Key} :
    other ∈ (table.record key entry).entries ↔ other = key ∨ other ∈ table.entries := by
  rw [Table.record, Std.TreeMap.mem_insertIfNew, Std.LawfulEqCmp.compare_eq_iff_eq, eq_comm]

/-- A rule that is settled while it has no entry, after all that it asks for, leaves everything in
order. -/
theorem InOrder.settled (h : InOrder arena input table ledger) (hkey : key ∉ table.entries)
    {survey : Survey} (hsurvey : arena.Surveys input key entry.value survey)
    (hall : ∀ other ∈ survey.all, other ∈ table.entries) :
    InOrder arena input (table.record key entry)
      (ledger.settled ⟨key, table.entries.contains key⟩) := by
  have hsize : (table.record key entry).size = table.size + 1 := by
    rw [Table.size, Table.record, Std.TreeMap.size_insertIfNew, if_neg hkey, Table.size]
  have hmisses : ((ledger.settled ⟨key, table.entries.contains key⟩).misses).map Miss.key =
      ledger.misses.map Miss.key ++ [key] := by simp [Ledger.settled]
  refine ⟨?_, ?_, ?_, ?_, ?_, ?_⟩
  · intro other found hother
    simp only [Table.record, Std.TreeMap.getElem?_insertIfNew] at hother
    split at hother
    · rename_i hnew
      cases hother
      obtain rfl := Key.eq_of_order_eq hnew.1
      exact ⟨survey, hsurvey, fun k hk => Table.mem_record.2 (Or.inr (hall k hk))⟩
    · obtain ⟨inner, hinner, hin⟩ := h.complete other found hother
      exact ⟨inner, hinner, fun k hk => Table.mem_record.2 (Or.inr (hin k hk))⟩
  · intro miss hmiss
    rcases List.mem_append.1 hmiss with hmiss | hmiss
    · exact h.absent miss hmiss
    · rw [List.mem_singleton.1 hmiss]
      exact Bool.eq_false_iff.2 fun hcontains => hkey (Std.TreeMap.contains_iff_mem.1 hcontains)
  · rw [hmisses]
    refine List.nodup_append.2 ⟨h.nodup, List.nodup_singleton key, ?_⟩
    rintro other hother _ hsame rfl
    rw [List.mem_singleton.1 hsame] at hother
    exact hkey ((h.mem_iff key).2 hother)
  · intro other
    rw [hmisses, Table.mem_record, List.mem_append, List.mem_singleton,
      h.mem_iff, or_comm]
  · rw [hsize, Ledger.settled, List.length_append, h.size_eq]
    rfl
  · have := h.asked_eq
    rw [hsize]
    show table.hits + (table.size + 1) = ledger.asked + 1
    omega

/-- Tables with entries for the same keys had the same misses, in whatever order. -/
theorem InOrder.perm {arena' : Arena} {table' : Table} {ledger' : Ledger}
    (h : InOrder arena input table ledger) (h' : InOrder arena' input table' ledger')
    (hmem : ∀ key, key ∈ table.entries ↔ key ∈ table'.entries) :
    (ledger.misses.map Miss.key).Perm (ledger'.misses.map Miss.key) := by
  rw [List.perm_ext_iff_of_nodup h.nodup h'.nodup]
  intro key
  rw [← h.mem_iff, ← h'.mem_iff, hmem]

/-- So they have equally many entries. -/
theorem InOrder.size_congr {arena' : Arena} {table' : Table} {ledger' : Ledger}
    (h : InOrder arena input table ledger) (h' : InOrder arena' input table' ledger')
    (hmem : ∀ key, key ∈ table.entries ↔ key ∈ table'.entries) : table.size = table'.size := by
  have hlength := (h.perm h' hmem).length_eq
  rw [List.length_map, List.length_map, h.size_eq, h'.size_eq] at hlength
  exact hlength

/-- How many rules the settled ones asked for themselves, if `lookups` tells this of each. -/
def Ledger.lookups (lookups : Key → Nat) (ledger : Ledger) : Nat :=
  ((ledger.misses.map Miss.key).map lookups).sum

theorem Ledger.lookups_settled (lookups : Key → Nat) (ledger : Ledger) (miss : Miss) :
    (ledger.settled miss).lookups lookups = ledger.lookups lookups + lookups miss.key := by
  simp [Ledger.lookups, Ledger.settled]

end Memo

/-- The function tells for each key how many rules are asked for directly when its own is
settled. -/
def Arena.CountsLookups (arena : Arena) (input : Input) (lookups : Memo.Key → Nat) : Prop :=
  ∀ key resolution survey, arena.Surveys input key resolution survey →
    lookups key = survey.direct.length

/-- What becomes of a table and its ledger by an evaluation with a survey: the keys of the survey
are entered, and what was asked for is what the survey lists directly and what the rules that were
settled asked for. -/
structure Accounts (arena : Arena) (input : Input) (survey : Survey) (before after : Audit) :
    Prop where
  inOrder : Memo.InOrder arena input after.progress.table after.ledger
  mem_iff : ∀ key, key ∈ after.progress.table.entries ↔
    key ∈ before.progress.table.entries ∨ key ∈ survey.all
  asked_add : ∀ lookups, arena.CountsLookups input lookups →
    after.ledger.asked + before.ledger.lookups lookups =
      before.ledger.asked + survey.direct.length + after.ledger.lookups lookups

section Accounts

variable {arena : Arena} {input : Input} {mode : Mode} {first second survey : Survey}
  {before between after : Audit}

theorem Accounts.nothing (h : Memo.InOrder arena input before.progress.table before.ledger)
    (farthest : Nat) :
    Accounts arena input .empty before ⟨⟨farthest, before.progress.table⟩, before.ledger⟩ := by
  refine ⟨h, fun key => ?_, fun lookups _ => rfl⟩
  simp [Survey.empty]

theorem Accounts.append (hfirst : Accounts arena input first before between)
    (hsecond : Accounts arena input second between after) :
    Accounts arena input (first.append second) before after := by
  refine ⟨hsecond.inOrder, fun key => ?_, fun lookups hlookups => ?_⟩
  · rw [hsecond.mem_iff, hfirst.mem_iff, Survey.mem_append, or_assoc]
  · have h := hfirst.asked_add lookups hlookups
    have h' := hsecond.asked_add lookups hlookups
    rw [Survey.append, List.length_append]
    omega

/-- A rule that is found has been settled to what its survey tells, and stands in the table with all
that it asks for. -/
theorem Accounts.found (h : Memo.InOrder arena input before.progress.table before.ledger)
    {key : Memo.Key} {resolution : Resolution} {inner : Survey}
    (hsurvey : arena.Surveys input key resolution inner) {entry : Memo.Entry} {next : Memo.Table}
    (hfound : before.progress.table.lookup? key = some (entry, next)) (farthest : Nat) :
    entry.value = resolution ∧
      Accounts arena input (.asking key inner) before
        ⟨⟨farthest, next⟩, before.ledger.found⟩ := by
  obtain ⟨hentry, hentries⟩ := Memo.Table.lookup?_eq_some hfound
  obtain ⟨other, hother, hall⟩ := h.complete key entry hentry
  obtain ⟨rfl, rfl⟩ := hsurvey.unique hother
  refine ⟨rfl, h.found hfound, fun k => ?_, fun lookups hlookups => rfl⟩
  have hthis : key ∈ before.progress.table.entries := by
    rw [Std.TreeMap.mem_iff_isSome_getElem?, hentry]
    rfl
  have hin : k ∈ (Survey.asking key inner).all → k ∈ before.progress.table.entries := by
    rw [Survey.mem_asking]
    rintro (rfl | hk)
    · exact hthis
    · exact hall k hk
  rw [hentries, or_iff_left_of_imp hin]

/-- A rule that is not found has no entry by the time that it is settled, as it does not ask for
itself. -/
theorem Accounts.settled {key : Memo.Key} {entry : Memo.Entry} {inner : Survey}
    (hsurvey : arena.Surveys input key entry.value inner)
    (hmissing : before.progress.table.lookup? key = none)
    (h : Accounts arena input inner before after) (farthest : Nat) :
    Accounts arena input (.asking key inner) before
      ⟨⟨farthest, after.progress.table.record key entry⟩,
        after.ledger.settled ⟨key, after.progress.table.entries.contains key⟩⟩ := by
  have hnew : key ∉ after.progress.table.entries := by
    rw [h.mem_iff]
    rintro (hkey | hkey)
    · exact Memo.Table.lookup?_eq_none.1 hmissing hkey
    · exact hsurvey.not_mem hkey
  refine ⟨?_, fun k => ?_, fun lookups hlookups => ?_⟩
  · exact h.inOrder.settled hnew hsurvey fun k hk => (h.mem_iff k).2 (Or.inr hk)
  · show k ∈ (after.progress.table.record key entry).entries ↔ _
    rw [Memo.Table.mem_record, h.mem_iff, Survey.mem_asking]
    exact or_left_comm
  · have hinner := h.asked_add lookups hlookups
    have hthis := hlookups key entry.value inner hsurvey
    rw [Memo.Ledger.lookups_settled, hthis]
    show after.ledger.asked + 1 + _ = before.ledger.asked + 1 + _
    omega

/-- Computations with a table and a ledger that account for surveyed ones. -/
def accounting (arena : Arena) (input : Input) : Simulation Audited Surveyed where
  Rel x y := ∀ before a survey, Memo.InOrder arena input before.progress.table before.ledger →
    y = .ok (a, survey) → ∃ after, x.run before = .ok (a, after) ∧
      Accounts arena input survey before after
  pure a := by
    intro before b survey hbefore h
    cases h
    exact ⟨before, rfl, .nothing hbefore _⟩
  bind hxy hfg := by
    intro before b survey hbefore h
    obtain ⟨a, first, second, hy, hg, rfl⟩ := surveyed_bind_eq_ok.1 h
    obtain ⟨between, hx, hfirst⟩ := hxy before a first hbefore hy
    obtain ⟨after, hf, hsecond⟩ := hfg a between b second hfirst.inOrder hg
    exact ⟨after, run_bind_eq_ok.2 ⟨a, between, hx, hf⟩, hfirst.append hsecond⟩
  fault e := by
    intro before a survey hbefore h
    cases h
  tried offset outcome := by
    intro before a survey hbefore h
    cases h
    exact ⟨before, rfl, .nothing hbefore _⟩
  reach index := by
    intro before a survey hbefore h
    cases h
    exact ⟨_, rfl, .nothing hbefore _⟩

/-- **A rule that is asked for is found, or it is settled and recorded.** -/
theorem settles_accounts {depth : Nat} {eval : NodeId → Nat → Audited Outcome} :
    (accounting arena input).Settles arena mode eval (surveyedNode arena input mode depth) := by
  intro id rule pos hrule hbody before resolution survey hbefore h
  obtain ⟨inner, hsurveyed, rfl⟩ := surveyed_settle_eq_ok.1 h
  have hsurvey : arena.Surveys input ⟨id, pos, mode⟩ resolution inner :=
    ⟨rule, depth, hrule, hsurveyed⟩
  show ∃ after, Audited.settle _ _ before = _ ∧ _
  unfold Audited.settle
  split
  · rename_i entry next hfound
    obtain ⟨rfl, haccounts⟩ := Accounts.found hbefore hsurvey hfound
      (max before.progress.farthest entry.farthest)
    exact ⟨_, rfl, haccounts⟩
  · rename_i hmissing
    obtain ⟨⟨⟨farthest, table⟩, ledger⟩, hrun, hinner⟩ :=
      hbody ⟨⟨pos, before.progress.table⟩, before.ledger⟩ resolution inner hbefore hsurveyed
    have hrun : resolve mode rule.alternatives pos (eval · pos)
        ⟨⟨pos, before.progress.table⟩, before.ledger⟩ =
          .ok (resolution, ⟨⟨farthest, table⟩, ledger⟩) := hrun
    have haccounts : Accounts arena input inner before ⟨⟨farthest, table⟩, ledger⟩ :=
      ⟨hinner.inOrder, hinner.mem_iff, hinner.asked_add⟩
    simp only [hrun]
    exact ⟨_, rfl, haccounts.settled hsurvey hmissing _⟩

/-- **An evaluation enters the keys of its survey**, and none of them twice. -/
theorem evalNode_accounts (depth : Nat) (id : NodeId) (pos : Nat) :
    (accounting arena input).Rel (evalNode arena input mode depth id pos)
      (surveyedNode arena input mode depth id pos) := by
  induction depth generalizing id pos with
  | zero => exact (accounting arena input).fault _
  | succ depth ih => exact (accounting arena input).evalNode_succ settles_accounts ih id pos

end Accounts

end Packrat
