import Packrat.Memo.Memoized
import Packrat.Proofs.PlainRun

/-!
# Evaluation with a table

What stands in a table was settled plainly (`Memo.Table.Sound`), at whatever offset, in whatever
mode and below whatever rules. So a rule that is found there is one that would be settled in the
same way, with failures that got just as far.

* `Memo.Table.Sound.record`, `Memo.Table.Sound.lookup?`: how tables are used.
* `evalNode_table`: **an evaluation with a sound table ends as the plain one does**, and leaves a
  sound table.
* `extendsProgress`: evaluations with a table, of which one comes further than the other.
-/

namespace Packrat

open Evaluation

namespace Memo.Table

variable {arena : Arena} {input : Input} {table : Table} {key : Key} {entry : Entry}

/-- Every entry is what its rule is plainly settled to, with the farthest failure counted from its
offset on. -/
def Sound (arena : Arena) (input : Input) (table : Table) : Prop :=
  ∀ (key : Key) (entry : Entry), table.entries[key]? = some entry →
    ∃ rule depth, arena.rule? key.rule = some rule ∧
      (plainBody arena input key.mode depth rule key.offset).run key.offset =
        .ok (entry.value, entry.farthest)

theorem sound_empty (arena : Arena) (input : Input) : Table.empty.Sound arena input := by
  intro key entry h
  simp [Table.empty] at h

theorem lookup?_eq_some {next : Table} (h : table.lookup? key = some (entry, next)) :
    table.entries[key]? = some entry ∧ next.entries = table.entries := by
  unfold lookup? at h
  split at h
  · rename_i found hfound
    cases h
    exact ⟨hfound, rfl⟩
  · cases h

/-- Finding an entry keeps the table sound. -/
theorem Sound.lookup? {next : Table} (h : table.Sound arena input)
    (hfound : table.lookup? key = some (entry, next)) : next.Sound arena input := by
  intro other found hother
  rw [(lookup?_eq_some hfound).2] at hother
  exact h other found hother

/-- Adding what a rule is settled to keeps the table sound. -/
theorem Sound.record (h : table.Sound arena input) {rule : Rule} {depth : Nat}
    (hrule : arena.rule? key.rule = some rule)
    (hrun : (plainBody arena input key.mode depth rule key.offset).run key.offset =
      .ok (entry.value, entry.farthest)) : (table.record key entry).Sound arena input := by
  intro other found hother
  simp only [Table.record, Std.TreeMap.getElem?_insertIfNew] at hother
  -- either the new entry is looked up, or one that was there
  split at hother
  · rename_i hkey
    cases hother
    obtain rfl := Key.eq_of_order_eq hkey.1
    exact ⟨rule, depth, hrule, hrun⟩
  · exact h other found hother

/-- Sound tables that have entries for the same keys have the same entries. -/
theorem Sound.getElem?_congr {other : Table} (h : table.Sound arena input)
    (hother : other.Sound arena input) (hmem : ∀ key, key ∈ table.entries ↔ key ∈ other.entries)
    (key : Key) : table.entries[key]? = other.entries[key]? := by
  have hkey := hmem key
  rw [Std.TreeMap.mem_iff_isSome_getElem?, Std.TreeMap.mem_iff_isSome_getElem?] at hkey
  cases hentry : table.entries[key]? with
  | none =>
    rw [hentry] at hkey
    rw [eq_comm, ← Option.not_isSome_iff_eq_none, ← hkey]
    exact Bool.false_ne_true
  | some entry =>
    rw [hentry] at hkey
    obtain ⟨entry', hentry'⟩ := Option.isSome_iff_exists.1 (hkey.1 rfl)
    -- both are what the rule of the key is settled to
    obtain ⟨rule, depth, hrule, hrun⟩ := h key entry hentry
    obtain ⟨rule', depth', hrule', hrun'⟩ := hother key entry' hentry'
    rw [hrule] at hrule'
    cases hrule'
    have hsame := plainBody_unique hrun hrun'
    obtain ⟨value, farthest⟩ := entry
    obtain ⟨value', farthest'⟩ := entry'
    cases hsame
    exact hentry'.symm

end Memo.Table

variable {arena : Arena} {input : Input} {mode : Mode}

/-- From a sound table on, a computation with a table ends as a plain one does where that one ends,
and leaves a sound table. -/
def Agrees (arena : Arena) (input : Input) {α : Type} (x : Memoized α) (y : Attempt α) : Prop :=
  ∀ progress a f', progress.table.Sound arena input → y.run progress.farthest = .ok (a, f') →
    ∃ table, x.run progress = .ok (a, ⟨f', table⟩) ∧ table.Sound arena input

/-- Computations with a table agree with plain ones when their parts do. -/
def tableReading (arena : Arena) (input : Input) : Simulation Memoized Attempt where
  Rel := Agrees arena input
  pure a := by
    intro progress b f' htable h
    obtain ⟨rfl, rfl⟩ := run_pure_eq_ok.1 h
    exact ⟨progress.table, rfl, htable⟩
  bind hxy hfg := by
    intro progress b f' htable h
    obtain ⟨a, f, hy, hg⟩ := run_bind_eq_ok.1 h
    obtain ⟨table, hx, htable⟩ := hxy progress a f htable hy
    obtain ⟨last, hf, hlast⟩ := hfg a ⟨f, table⟩ b f' htable hg
    exact ⟨last, run_bind_eq_ok.2 ⟨a, _, hx, hf⟩, hlast⟩
  fault e := by
    intro progress a f' htable h
    cases h
  tried offset outcome := by
    intro progress a f' htable h
    obtain ⟨rfl, rfl⟩ := run_pure_eq_ok.1 h
    exact ⟨progress.table, rfl, htable⟩
  reach index := by
    intro progress a f' htable h
    cases h
    exact ⟨progress.table, rfl, htable⟩

/-- A rule is settled with a table as it is plainly: it is found, as it was settled before, or it
is settled and recorded. -/
theorem settles_table {eval : NodeId → Nat → Memoized Outcome} {depth : Nat} :
    (tableReading arena input).Settles arena mode eval (plainNode arena input mode depth) := by
  intro id rule pos hrule hbody progress resolution f' htable h
  obtain ⟨inner, hplain, rfl⟩ := settle_run_eq_ok.1 h
  show ∃ table, Memoized.settle _ _ progress = _ ∧ _
  unfold Memoized.settle
  split
  -- what was found was settled with some limit, which is as good as this one
  · rename_i entry table hfound
    obtain ⟨other, depth', hother, hsettled⟩ :=
      htable _ entry (Memo.Table.lookup?_eq_some hfound).1
    rw [hrule] at hother
    cases hother
    have hsame := plainBody_unique hplain hsettled
    cases hsame
    exact ⟨table, rfl, htable.lookup? hfound⟩
  -- else the alternatives are tried with the table, from the offset of the rule on
  · obtain ⟨table, hrun, hsound⟩ := hbody ⟨pos, progress.table⟩ resolution inner htable hplain
    have hrun : resolve mode rule.alternatives pos (eval · pos) ⟨pos, progress.table⟩ =
      .ok (resolution, ⟨inner, table⟩) := hrun
    simp only [hrun]
    exact ⟨_, rfl, hsound.record hrule hplain⟩

/-- **An evaluation with a sound table ends as the plain one does**, and leaves a sound table. -/
theorem evalNode_table (depth : Nat) (id : NodeId) (pos : Nat) :
    Agrees arena input (evalNode arena input mode depth id pos)
      (plainNode arena input mode depth id pos) := by
  induction depth generalizing id pos with
  | zero => exact (tableReading arena input).fault _
  | succ depth ih => exact (tableReading arena input).evalNode_succ settles_table ih id pos

/-- Where the first of two computations with a table ends well so does the second, with the same
result. -/
def keepsProgress : Simulation Memoized Memoized where
  Rel x y := ∀ progress r, x.run progress = .ok r → y.run progress = .ok r
  pure _ _ _ h := h
  bind hxy hfg progress r h := by
    obtain ⟨a, inner, hx, hf⟩ := run_bind_eq_ok.1 h
    exact run_bind_eq_ok.2 ⟨a, inner, hxy progress _ hx, hfg a inner r hf⟩
  fault _ _ _ h := h
  tried _ _ _ _ h := h
  reach _ _ _ h := h

/-- The second of two computations with a table ends as the first does, also where the first has a
lower limit. -/
def extendsProgress : Extension Memoized where
  toSimulation := keepsProgress
  gaveUp _ _ _ _ h := by cases h
  settling key x y hxy progress r h := by
    have h : Memoized.settle key x progress = .ok r := h
    show Memoized.settle key y progress = .ok r
    unfold Memoized.settle at h ⊢
    split
    · rename_i entry table hfound
      rwa [hfound] at h
    -- what is not in the table is settled by the second as it is by the first
    · rename_i hnone
      rw [hnone] at h
      cases hx : x ⟨key.offset, progress.table⟩ with
      | error e =>
        rw [hx] at h
        cases h
      | ok settled =>
        have hy : y ⟨key.offset, progress.table⟩ = .ok settled := hxy _ _ hx
        rw [hx] at h
        rw [hy]
        exact h

end Packrat
