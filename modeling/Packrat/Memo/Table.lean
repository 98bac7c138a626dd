import Packrat.Evaluation.Attempt
import Std.Data.TreeMap

/-!
# Memo tables

A table of the rules settled so far over one text. Beside the resolution an entry keeps the
farthest failure on the way to it, so that a rule found in the table counts for as much as one
that is settled anew.

* `Table.lookup?`: finds an entry, and counts that it was found.
* `Table.record`: adds an entry where there was none.
-/

namespace Packrat.Memo

/-- A settled rule: its resolution with the farthest failure on the way. -/
abbrev Entry := Reached Resolution

/-- The rules settled so far, and how often one was found again. -/
structure Table where
  entries : Std.TreeMap Key Entry Key.order
  hits : Nat

namespace Table

def empty : Table := ⟨∅, 0⟩

/-- The number of entries. -/
def size (table : Table) : Nat := table.entries.size

def isEmpty (table : Table) : Bool := table.entries.isEmpty

/-- The entry of a key, with the table in which it is counted as found. -/
def lookup? (table : Table) (key : Key) : Option (Entry × Table) :=
  match table.entries[key]? with
  | some entry => some (entry, { table with hits := table.hits + 1 })
  | none => none

/-- Adds an entry, unless the key has one. -/
def record (table : Table) (key : Key) (entry : Entry) : Table :=
  { table with entries := table.entries.insertIfNew key entry }

end Table

end Packrat.Memo
