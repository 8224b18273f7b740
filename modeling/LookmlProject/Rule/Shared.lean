import LookmlProject.Rule.Registry

/-!
# The shared registry

There is one registry, and all who work with rules hold it.  It is made when the first holder comes
and lasts from then on.  A holder has nothing of its own: what it is asked is asked of the one
registry.
-/

namespace LookmlProject.Registry

/-- What can be asked about a key. -/
inductive Request where
  | register (item : Registered)
  | unregister
  | contains
  | instantiate (settings : Value)

/-- What a request brings. -/
inductive Answer where
  | done
  | holds (registered : Bool)
  | made (rule : Rule)

/-- The registry after a request, and the answer.  A request that fails changes nothing. -/
def serve (registry : Registry) (key : Value) (request : Request) :
    Registry × Except Fault Answer :=
  let changed : Except Fault Registry → Registry × Except Fault Answer
    | .ok after => (after, .ok .done)
    | .error fault => (registry, .error fault)
  match request with
  | .register item => changed (registry.register key item)
  | .unregister => changed (registry.unregister key)
  | .contains => (registry, .holds <$> registry.contains key)
  | .instantiate settings => (registry, .made <$> registry.instantiate key settings)

/-- The one registry, from its first holder on, and the number of its holders. -/
structure Shared where
  registry? : Option Registry
  holders : Nat

namespace Shared

/-- Nobody has come yet. -/
def fresh : Shared := ⟨none, 0⟩

/-- A holder comes; the registry is made unless it is there. -/
def hold (shared : Shared) : Shared :=
  ⟨some (shared.registry?.getD .builtin), shared.holders + 1⟩

/-- A holder is asked; it has to be there. -/
def ask (shared : Shared) (holder : Nat) (key : Value) (request : Request) :
    Option (Shared × Except Fault Answer) := do
  guard (holder < shared.holders)
  let registry ← shared.registry?
  let (after, answer) := registry.serve key request
  return ({ shared with registry? := some after }, answer)

end Shared

end LookmlProject.Registry
