import ResourceServer.Store

/-!
# Journals

A journal stands beside a store. It counts calls by name and keeps entries in the order in which they were
written, so that policies and hooks can tell how often they were called and leave a trace.
-/

namespace ResourceServer

/-- Counters of calls, and entries. -/
structure Journal where
  counters : List (String × Nat) := []
  entries : List Value := []
deriving Repr, Inhabited

/-- A store with a journal beside it. -/
abbrev Journaled (σ : Type) := σ × Journal

namespace Journal

/-- The number of calls counted under a name. -/
def count (journal : Journal) (name : String) : Nat := (journal.counters.lookup name).getD 0

/-- The journal after one more call. -/
def counted (journal : Journal) (name : String) : Journal :=
  { journal with
    counters := (name, journal.count name + 1) :: journal.counters.filter fun entry => entry.1 != name }

variable {σ : Type}

/-- Writes an entry. -/
def note (entry : Value) : Action (Journaled σ) Unit := fun (state, journal) =>
  (.ok (), (state, { journal with entries := journal.entries ++ [entry] }))

/-- Counts a call; yields its number, from one on. -/
def tick (name : String) : Action (Journaled σ) Nat := fun (state, journal) =>
  (.ok (journal.count name + 1), (state, journal.counted name))

/-- Takes all entries out. -/
def takeEntries : Action (Journaled σ) (List Value) := fun (state, journal) =>
  (.ok journal.entries, (state, { journal with entries := [] }))

end Journal

end ResourceServer
