/-!
# Values under keys

A list of keys with values, in the order in which the keys first came.  Each key occurs once.
-/

namespace LookmlProject

/-- Keys with values. -/
abbrev Keyed (Key α : Type) := List (Key × α)

namespace Keyed

variable {Key α : Type} [BEq Key]

/-- The value under a key. -/
def get? (keyed : Keyed Key α) (key : Key) : Option α := (keyed.find? fun e => e.1 == key).map (·.2)

/-- Whether a key has a value. -/
def contains (keyed : Keyed Key α) (key : Key) : Bool := keyed.any fun e => e.1 == key

/-- Puts a value under a key: in place if the key is there, at the end if it is not. -/
def set : Keyed Key α → Key → α → Keyed Key α
  | [], key, value => [(key, value)]
  | (k, v) :: rest, key, value =>
    if k == key then (k, value) :: rest else (k, v) :: set rest key value

/-- Takes a key out. -/
def erase (keyed : Keyed Key α) (key : Key) : Keyed Key α := keyed.filter fun e => !(e.1 == key)

theorem snd_of_mem_set {keyed : Keyed Key α} {key : Key} {value : α} {e : Key × α}
    (h : e ∈ set keyed key value) : e ∈ keyed ∨ e.2 = value := by
  induction keyed with
  | nil =>
      rw [List.mem_singleton.mp h]
      exact Or.inr rfl
  | cons first rest ih =>
      rw [set] at h
      split at h
      · rcases List.mem_cons.mp h with rfl | hrest
        · exact Or.inr rfl
        · exact Or.inl (List.mem_cons_of_mem _ hrest)
      · rcases List.mem_cons.mp h with rfl | hrest
        · exact Or.inl List.mem_cons_self
        · exact (ih hrest).imp_left (List.mem_cons_of_mem _)

/-- Every value comes from an entry. -/
theorem snd_of_mem_foldl_set (entries : Keyed Key α) :
    ∀ (keyed : Keyed Key α), ∀ e ∈ entries.foldl (fun keyed e => set keyed e.1 e.2) keyed,
      e ∈ keyed ∨ ∃ entry ∈ entries, e.2 = entry.2 := by
  induction entries with
  | nil => exact fun keyed e he => Or.inl he
  | cons first rest ih =>
      intro keyed e he
      rcases ih _ e he with hset | ⟨entry, hentry, hvalue⟩
      · exact (snd_of_mem_set hset).imp_right fun hvalue => ⟨first, List.mem_cons_self, hvalue⟩
      · exact Or.inr ⟨entry, List.mem_cons_of_mem _ hentry, hvalue⟩

/-- Entries of which no two have equal keys. -/
def Distinct (keyed : Keyed Key α) : Prop :=
  keyed.Pairwise fun first second => (first.1 == second.1) = false

instance (keyed : Keyed Key α) : Decidable (Distinct keyed) :=
  inferInstanceAs (Decidable (keyed.Pairwise fun first second => (first.1 == second.1) = false))

/-- A new key comes at the end. -/
theorem set_of_fresh {keyed : Keyed Key α} {key : Key} (h : ∀ e ∈ keyed, (e.1 == key) = false)
    (value : α) : set keyed key value = keyed ++ [(key, value)] := by
  induction keyed with
  | nil => rfl
  | cons e rest ih =>
      rw [set, h e List.mem_cons_self, if_neg Bool.false_ne_true,
        ih fun e he => h e (List.mem_cons_of_mem _ he)]
      rfl

/-- Entries with distinct keys come behind those that are there, in their order. -/
theorem foldl_set (entries : Keyed Key α) :
    ∀ keyed : Keyed Key α, Distinct (keyed ++ entries) →
      entries.foldl (fun keyed e => set keyed e.1 e.2) keyed = keyed ++ entries := by
  induction entries with
  | nil => exact fun keyed _ => (List.append_nil keyed).symm
  | cons e rest ih =>
      intro keyed h
      have hfresh : ∀ other ∈ keyed, (other.1 == e.1) = false := fun other hother =>
        (List.pairwise_append.mp h).2.2 other hother e List.mem_cons_self
      rw [List.append_cons] at h ⊢
      rw [List.foldl_cons, set_of_fresh hfresh, ih _ h]

theorem fst_of_mem_set {keyed : Keyed Key α} {key : Key} {value : α} {e : Key × α}
    (h : e ∈ set keyed key value) : e.1 = key ∨ ∃ old ∈ keyed, e.1 = old.1 := by
  induction keyed with
  | nil =>
      rw [List.mem_singleton.mp h]
      exact Or.inl rfl
  | cons first rest ih =>
      rw [set] at h
      split at h
      · rcases List.mem_cons.mp h with rfl | hrest
        · exact Or.inr ⟨first, List.mem_cons_self, rfl⟩
        · exact Or.inr ⟨e, List.mem_cons_of_mem _ hrest, rfl⟩
      · rcases List.mem_cons.mp h with rfl | hrest
        · exact Or.inr ⟨first, List.mem_cons_self, rfl⟩
        · obtain hnew | ⟨old, hold, hkey⟩ := ih hrest
          · exact Or.inl hnew
          · exact Or.inr ⟨old, List.mem_cons_of_mem _ hold, hkey⟩

/-- Distinct keys stay distinct. -/
theorem Distinct.set {keyed : Keyed Key α} (h : Distinct keyed) (key : Key) (value : α) :
    Distinct (set keyed key value) := by
  induction keyed with
  | nil => exact List.pairwise_singleton _ _
  | cons first rest ih =>
      obtain ⟨hfirst, hrest⟩ := List.pairwise_cons.mp h
      rw [Keyed.set]
      split
      · exact List.pairwise_cons.mpr ⟨hfirst, hrest⟩
      · next hkey =>
          refine List.pairwise_cons.mpr ⟨fun e he => ?_, ih hrest⟩
          rcases fst_of_mem_set he with hnew | ⟨old, hold, hsame⟩
          · rw [hnew]
            exact Bool.not_eq_true _ ▸ hkey
          · rw [hsame]
            exact hfirst old hold

theorem Distinct.foldl_set (entries : Keyed Key α) :
    ∀ {keyed : Keyed Key α}, Distinct keyed →
      Distinct (entries.foldl (fun keyed e => Keyed.set keyed e.1 e.2) keyed) := by
  induction entries with
  | nil => exact fun h => h
  | cons e rest ih => exact fun h => ih (h.set e.1 e.2)

end Keyed

end LookmlProject
