import LookmlProject.Store.Basic

/-!
# Work on files

Work that reads and writes files of a store, step by step.  A journal keeps the store as it is by now
and what has been written so far.  The work may stop with a fault; what was written before stays
written.
-/

namespace LookmlProject

/-- The store together with the writings so far, the oldest first, each with its path and text. -/
structure Journal where
  store : Store
  writings : List (String × String)

/-- Writes a text to the file at a path, and notes it. -/
def Journal.write (journal : Journal) (path text : String) : Except Fault Journal := do
  let store ← journal.store.write path text
  return { store, writings := journal.writings ++ [(path, text)] }

/-- Work on files that may stop. -/
abbrev Work := EStateM Fault Journal

namespace Work

/-- A result that may be a fault. -/
def lift {α : Type} (result : Except Fault α) : Work α :=
  match result with
  | .ok a => pure a
  | .error fault => throw fault

/-- Reads something from the store. -/
def look {α : Type} (reading : Store → Except Fault α) : Work α := do
  lift (reading (← get).store)

/-- Writes a text to the file at a path. -/
def write (path text : String) : Work Unit := do
  let journal ← get
  set (← lift (journal.write path text))

end Work

end LookmlProject
