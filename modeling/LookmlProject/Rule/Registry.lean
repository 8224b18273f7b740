import LookmlProject.Keyed
import LookmlProject.Rule.Basic

/-!
# The registry of rules

A registry maps keys to kinds of rules.  It starts with every built-in rule under its own name.  A
key is mostly a text, but any value that can be a key will do, and something that is no kind of rules
can be registered too, only that no rule comes of it.
-/

namespace LookmlProject

/-- What is registered under a key. -/
inductive Registered where
  /-- A kind of rules. -/
  | rule (kind : RuleKind)
  /-- Something that makes no rules. -/
  | noRule
deriving DecidableEq, Repr

/-- Keys and what is registered under them; each key occurs once. -/
structure Registry where
  entries : Keyed Value Registered

namespace Registry

/-- The registry of the built-in rules. -/
def builtin : Registry := ⟨RuleKind.all.map fun kind => (.text kind.name, .rule kind)⟩

/-- Whether a key is registered. -/
def contains (registry : Registry) (key : Value) : Except Fault Bool := do
  return registry.entries.contains (← key.asKey)

/-- Registers something under a key. -/
def register (registry : Registry) (key : Value) (item : Registered) : Except Fault Registry := do
  return ⟨registry.entries.set (← key.asKey) item⟩

/-- Removes a registered key. -/
def unregister (registry : Registry) (key : Value) : Except Fault Registry := do
  if ← registry.contains key then return ⟨registry.entries.erase key⟩
  else throw (.unregistered (← key.asText))

/-- A rule of the kind under a key. -/
def instantiate (registry : Registry) (key settings : Value) : Except Fault Rule := do
  match registry.entries.get? (← key.asKey), key with
  | some (.rule kind), _ => Rule.create kind settings
  | some .noRule, _ => throw .wrongShape
  | none, .text name => throw (.missingKey name)
  | none, _ => throw .missingEntry

/-- The registered keys. -/
def keys (registry : Registry) : List Value := registry.entries.map (·.1)

end Registry

end LookmlProject
