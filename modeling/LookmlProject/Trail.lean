import LookmlProject.Fault

/-!
# Trails

Work that leaves results one after the other and may stop with a fault.  What was left before the
fault stays, so a trail is a list of results together with the fault that ended it, if one did.
-/

namespace LookmlProject

/-- The results of a piece of work and the fault that ended it early. -/
structure Trail (α : Type) where
  steps : List α
  fault : Option Fault

namespace Trail

variable {α β : Type}

/-- Work without results. -/
def nil : Trail α := ⟨[], none⟩

/-- Work with the given results. -/
def of (steps : List α) : Trail α := ⟨steps, none⟩

/-- Work that stops at once. -/
def stop (fault : Fault) : Trail α := ⟨[], some fault⟩

/-- One piece of work after another; nothing follows a fault. -/
def append (first second : Trail α) : Trail α :=
  match first.fault with
  | some _ => first
  | none => ⟨first.steps ++ second.steps, second.fault⟩

instance : Append (Trail α) := ⟨append⟩

/-- Work that needs a result which may be a fault. -/
def need (result : Except Fault β) (next : β → Trail α) : Trail α :=
  match result with
  | .error fault => stop fault
  | .ok b => next b

/-- The work on each element of a list, in order. -/
def flatMap (work : β → Trail α) : List β → Trail α
  | [] => nil
  | b :: rest => work b ++ flatMap work rest

/-! ## Work that comes to its end -/

/-- Two pieces of work in a row come to their end if both of them do. -/
theorem append_eq_of {first second : Trail α} {steps : List α} :
    first ++ second = .of steps ↔
      ∃ xs ys, first = .of xs ∧ second = .of ys ∧ steps = xs ++ ys := by
  obtain ⟨xs, fault⟩ := first
  obtain ⟨ys, fault'⟩ := second
  show append ⟨xs, fault⟩ ⟨ys, fault'⟩ = _ ↔ _
  cases fault with
  | some cause => simp [append, of]
  | none => cases fault' <;> simp [append, of, eq_comm]

theorem need_eq_of {result : Except Fault β} {next : β → Trail α} {steps : List α} :
    need result next = .of steps ↔ ∃ b, result = .ok b ∧ next b = .of steps := by
  cases result with
  | error fault => simp [need, stop, of]
  | ok b => simp [need]

/-- The work on a list comes to its end if that on each element does, and has the results of each. -/
theorem flatMap_eq_of {work : β → Trail α} {items : List β} {steps : List α}
    (h : flatMap work items = .of steps) :
    ∀ b ∈ items, ∃ part, work b = .of part ∧ part ⊆ steps := by
  induction items generalizing steps with
  | nil =>
      intro b hb
      exact nomatch hb
  | cons item rest ih =>
      obtain ⟨xs, ys, hitem, hrest, rfl⟩ := append_eq_of.mp h
      intro b hb
      rcases List.mem_cons.mp hb with rfl | hmem
      · exact ⟨xs, hitem, List.subset_append_left xs ys⟩
      · obtain ⟨part, hpart, hsub⟩ := ih hrest b hmem
        exact ⟨part, hpart, fun a ha => List.mem_append_right xs (hsub ha)⟩

/-! ## What all results have in common -/

/-- All results of a piece of work are of some sort, also if it ends early. -/
def Each (sort : α → Prop) (trail : Trail α) : Prop := ∀ a ∈ trail.steps, sort a

variable {sort : α → Prop}

theorem Each.nil : Each sort (nil : Trail α) := fun _ h => nomatch h

theorem Each.stop (fault : Fault) : Each sort (stop fault : Trail α) := fun _ h => nomatch h

theorem Each.append {first second : Trail α} (h : Each sort first) (h' : Each sort second) :
    Each sort (first ++ second) := by
  obtain ⟨xs, fault⟩ := first
  cases fault with
  | some cause => exact h
  | none => exact List.forall_mem_append.mpr ⟨h, h'⟩

theorem Each.need {result : Except Fault β} {next : β → Trail α} (h : ∀ b, Each sort (next b)) :
    Each sort (need result next) := by
  cases result with
  | error fault => exact Each.stop fault
  | ok b => exact h b

theorem Each.flatMap {work : β → Trail α} (h : ∀ b, Each sort (work b)) (items : List β) :
    Each sort (flatMap work items) := by
  induction items with
  | nil => exact Each.nil
  | cons item rest ih => exact (h item).append ih

end Trail

end LookmlProject
