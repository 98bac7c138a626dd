import Packrat.Memo.Memoized

/-!
# Ledgers

An evaluation with a memo table that keeps a ledger of what it does with the table. The ledger
changes nothing else.

* `Memo.Ledger`: how often a rule was asked for, and each time that one had to be settled.
* `Audited`: evaluations with a table and a ledger.
-/

namespace Packrat

namespace Memo

/-- A rule that was asked for, was not in the table, and was settled. -/
structure Miss where
  key : Key
  /-- Whether the key had an entry by the time that the rule was settled. -/
  present : Bool
deriving DecidableEq

/-- What was done with a table. -/
structure Ledger where
  /-- How often a rule was asked for. -/
  asked : Nat
  /-- The rules that were settled, in order. -/
  misses : List Miss
deriving DecidableEq

namespace Ledger

def empty : Ledger := ⟨0, []⟩

/-- A rule was asked for and found. -/
def found (ledger : Ledger) : Ledger := { ledger with asked := ledger.asked + 1 }

/-- A rule was asked for and settled. -/
def settled (ledger : Ledger) (miss : Miss) : Ledger :=
  ⟨ledger.asked + 1, ledger.misses ++ [miss]⟩

end Ledger

end Memo

/-- What an evaluation with a ledger carries along. -/
structure Audit where
  progress : Progress
  ledger : Memo.Ledger

/-- An evaluation with a memo table and a ledger. -/
abbrev Audited : Type → Type := StateT Audit (Except Fault)

namespace Audited

/-- Finds a settled rule in the table, or settles it and records it, as `Memoized.settle` does. -/
def settle (key : Memo.Key) (body : Audited Resolution) : Audited Resolution := fun outer =>
  match outer.progress.table.lookup? key with
  | some (entry, table) =>
    .ok (entry.value,
      ⟨⟨max outer.progress.farthest entry.farthest, table⟩, outer.ledger.found⟩)
  | none =>
    match body ⟨⟨key.offset, outer.progress.table⟩, outer.ledger⟩ with
    | .error e => .error e
    | .ok (resolution, ⟨⟨farthest, table⟩, ledger⟩) =>
      .ok (resolution,
        ⟨⟨max outer.progress.farthest farthest, table.record key ⟨resolution, farthest⟩⟩,
          ledger.settled ⟨key, table.entries.contains key⟩⟩)

instance : Matching Audited where
  fault e := fun _ => .error e
  tried _ _ := pure ()
  reach index := modify fun audit =>
    { audit with progress := { audit.progress with farthest := max audit.progress.farthest index } }
  settling := settle

end Audited

end Packrat
