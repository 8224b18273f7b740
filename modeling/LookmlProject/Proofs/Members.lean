import LookmlProject.Lookml.Document
import LookmlProject.Value.Access

/-! # Walks through values

    A document gives its views, explores and fields as values, which may have any
    shape.  What a walk through such a value meets is told here by a list, which is
    empty where there is nothing to walk through (`members`), together with what
    asking for an entry, a text or the first element tells about the value. -/

namespace LookmlProject.Lookml

open Value

/-! ## Entries and texts -/

theorem asText_eq_ok {v : Value} {s : String} (h : v.asText = .ok s) : v = .text s := by
  cases v with
  | text t => cases h; rfl
  | null => cases h
  | bool b => cases h
  | int n => cases h
  | float x => cases h
  | list items => cases h
  | record fields => cases h

/-- A key that is looked up with success is there. -/
theorem has_of_lookup {v x : Value} {key : String} (h : v.lookup key = .ok x) :
    v.has key = .ok true := by
  cases v with
  | record fields =>
      rw [Value.lookup] at h
      show Except.ok (Fields.has fields key) = _
      rw [Fields.has]
      cases hget : Fields.get? fields key with
      | none => rw [hget] at h; cases h
      | some y => rfl
  | null => cases h
  | bool b => cases h
  | int n => cases h
  | float x => cases h
  | text s => cases h
  | list items => cases h

/-! ## What a walk meets -/

/-- What a walk through a value meets, nothing if it cannot be walked through. -/
def members (v : Value) : List Value :=
  match v.elements with
  | .ok items => items
  | .error _ => []

theorem members_eq {v : Value} {items : List Value} (h : v.elements = .ok items) :
    members v = items := by
  rw [members, h]

/-- A value under which nothing is present has no members. -/
theorem members_of_not_present {entry : Option Value} (h : (presence entry).truthy = false) :
    members (entry.getD .null) = [] := by
  cases entry with
  | none => rfl
  | some v =>
      have hfalse : v.truthy = false := by
        rw [presence] at h
        cases htruthy : v.truthy with
        | false => rfl
        | true => rw [htruthy] at h; cases h
      show members v = []
      cases v with
      | list items =>
          rw [truthy, Bool.not_eq_false', List.isEmpty_iff] at hfalse
          rw [hfalse]
          rfl
      | text s =>
          have hempty : s = "" := by simpa [truthy] using hfalse
          rw [hempty]
          rfl
      | record fields =>
          rw [truthy, Bool.not_eq_false', List.isEmpty_iff] at hfalse
          rw [hfalse]
          rfl
      | null => rfl
      | bool b => rfl
      | int n => rfl
      | float x => rfl

/-- A value that is present counts as true. -/
theorem truthy_of_present {entry : Option Value} (h : (presence entry).truthy = true) :
    (entry.getD .null).truthy = true := by
  cases entry with
  | none => cases h
  | some v =>
      rw [presence] at h
      show v.truthy = true
      by_cases htruthy : v.truthy = true
      · exact htruthy
      · rwa [if_neg htruthy] at h

/-- A document with views has some value for them that counts as true. -/
theorem truthy_views {doc : Document} (hviews : doc.hasViews = true) : doc.views.truthy = true :=
  truthy_of_present hviews

theorem truthy_explores {doc : Document} (hexplores : doc.hasExplores = true) :
    doc.explores.truthy = true :=
  truthy_of_present hexplores

theorem truthy_of_no_elements {v : Value} (h : v.elements = .ok []) : v.truthy = false := by
  cases v with
  | list items => cases h; rfl
  | text s =>
      have hempty : s.toList = [] := List.map_eq_nil_iff.mp (Except.ok.inj h)
      simp [truthy, String.toList_eq_nil_iff.mp hempty]
  | record fields =>
      have hempty : fields = [] := List.map_eq_nil_iff.mp (Except.ok.inj h)
      simp [truthy, hempty]
  | null => cases h
  | bool b => cases h
  | int n => cases h
  | float x => cases h

/-- What is met first in a walk through a list is what stands at its first position, and a walk
through any other value meets texts. -/
theorem first_member {v first : Value} {rest : List Value} (h : v.elements = .ok (first :: rest)) :
    v.nth 0 = .ok first ∨ ∃ s, first = .text s := by
  cases v with
  | list items =>
      cases h
      exact Or.inl rfl
  | text s =>
      right
      have hmem : first ∈ s.toList.map ofChar := by
        rw [Except.ok.inj h]
        exact List.mem_cons_self
      obtain ⟨c, _, hc⟩ := List.mem_map.mp hmem
      exact ⟨_, hc.symm⟩
  | record fields =>
      right
      have hmem : first ∈ fields.map fun f => Value.text f.1 := by
        rw [Except.ok.inj h]
        exact List.mem_cons_self
      obtain ⟨f, _, hf⟩ := List.mem_map.mp hmem
      exact ⟨_, hf.symm⟩
  | null => cases h
  | bool b => cases h
  | int n => cases h
  | float x => cases h

/-- The first element is the one that a walk meets first. -/
theorem members_of_nth_zero {v first : Value} (h : v.nth 0 = .ok first) :
    ∃ rest, members v = first :: rest := by
  cases v with
  | list items =>
      cases items with
      | nil => cases h
      | cons item rest => cases h; exact ⟨rest, rfl⟩
  | text s =>
      show ∃ rest, s.toList.map ofChar = first :: rest
      cases hs : s.toList with
      | nil => simp [nth, hs] at h
      | cons c cs =>
          have hfirst : ofChar c = first := by simpa [nth, hs] using h
          exact ⟨cs.map ofChar, by rw [List.map_cons, hfirst]⟩
  | record fields => cases h
  | null => cases h
  | bool b => cases h
  | int n => cases h
  | float x => cases h

end LookmlProject.Lookml
