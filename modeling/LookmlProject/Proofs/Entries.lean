import LookmlProject.Keyed
import LookmlProject.Lookml.Item
import Mathlib.Data.List.Forall2

/-!
# The entries of items

Items become the entries of a record one after the other (`Item.addAll`).  Three facts about
that are proved here:

  * **what is gathered** (`gathered`): under the plural of a key stand the values of all items with
    that key, in order;
  * **what a change of some items changes** (`addAll_alike`): a map of the entries that goes along
    with gathering (`Compatible`) cannot tell the entries of two sequences of items apart if it
    cannot tell the items apart;
  * **what a change of one key changes** (`addAll_of_erase_eq`): entries that differ in one key at
    most do so still when the same items are added to both.
-/

namespace LookmlProject.Lookml

open Value

/-! ## Records -/

/-- What is found after an entry was set: the new value under its key, the old ones under others. -/
theorem get?_set (fields : Fields) (key key' : String) (value : Value) :
    Fields.get? (Fields.set fields key value) key' =
      if key = key' then some value else Fields.get? fields key' := by
  induction fields with
  | nil => rfl
  | cons entry fields ih =>
      obtain ⟨k, v⟩ := entry
      -- The key is set at its first place, so only the first entry matters.
      by_cases hk : k = key
      · subst hk
        by_cases hk' : k = key' <;> simp [Fields.set, Fields.get?, hk']
      · rw [Fields.set, if_neg hk, Fields.get?, Fields.get?, ih]
        by_cases hk' : k = key'
        · simp [hk', show key ≠ key' from fun h => hk (hk'.trans h.symm)]
        · simp [hk']

/-- The entries of a record with other values. -/
def mapEntries (change : String → Value → Value) (fields : Fields) : Fields :=
  fields.map fun entry => (entry.1, change entry.1 entry.2)

section MapEntries

variable (change : String → Value → Value) (fields : Fields) (key : String)

/-- What is found among changed values is the changed value. -/
theorem get?_mapEntries :
    Fields.get? (mapEntries change fields) key = (Fields.get? fields key).map (change key) := by
  induction fields with
  | nil => rfl
  | cons entry fields ih =>
      obtain ⟨k, v⟩ := entry
      by_cases hk : k = key
      · subst hk
        simp [mapEntries, Fields.get?]
      · have ih' := ih
        rw [mapEntries] at ih'
        simp [mapEntries, Fields.get?, hk, ih']

theorem has_mapEntries : Fields.has (mapEntries change fields) key = Fields.has fields key := by
  rw [Fields.has, Fields.has, get?_mapEntries, Option.isSome_map]

/-- Setting and then changing is changing and then setting the changed value. -/
theorem set_mapEntries (value : Value) :
    Fields.set (mapEntries change fields) key (change key value) =
      mapEntries change (Fields.set fields key value) := by
  induction fields with
  | nil => rfl
  | cons entry fields ih =>
      obtain ⟨k, v⟩ := entry
      rw [mapEntries] at ih
      by_cases hk : k = key
      · subst hk
        simp [mapEntries, Fields.set]
      · rw [mapEntries, List.map_cons, Fields.set, Fields.set, if_neg hk, if_neg hk, ih]
        rfl

end MapEntries

/-- Taking a key out does not touch the others. -/
theorem get?_erase {key key' : String} (hne : key ≠ key') (fields : Fields) :
    Fields.get? (Keyed.erase fields key') key = Fields.get? fields key := by
  induction fields with
  | nil => rfl
  | cons entry fields ih =>
      obtain ⟨k, v⟩ := entry
      rw [Keyed.erase] at ih
      by_cases hk : k = key'
      · subst hk
        simpa [Keyed.erase, Fields.get?, Ne.symm hne] using ih
      · simp [Keyed.erase, Fields.get?, hk, ih]

/-- Taking a key out and setting another can be done in either order. -/
theorem erase_set {key key' : String} (hne : key ≠ key') (fields : Fields) (value : Value) :
    Keyed.erase (Fields.set fields key value) key' =
      Fields.set (Keyed.erase fields key') key value := by
  induction fields with
  | nil => simp [Keyed.erase, Fields.set, hne]
  | cons entry fields ih =>
      obtain ⟨k, v⟩ := entry
      rw [Keyed.erase] at ih
      by_cases hk : k = key
      · subst hk
        simp [Keyed.erase, Fields.set, hne]
      · by_cases hk' : k = key'
        · subst hk'
          simp [Keyed.erase, Fields.set, hk, ih]
        · simp [Keyed.erase, Fields.set, hk, hk', ih]

/-- Taking a key out forgets what was set under it. -/
theorem erase_set_same (fields : Fields) (key : String) (value : Value) :
    Keyed.erase (Fields.set fields key value) key = Keyed.erase fields key := by
  induction fields with
  | nil => simp [Keyed.erase, Fields.set]
  | cons entry fields ih =>
      obtain ⟨k, v⟩ := entry
      rw [Keyed.erase] at ih
      by_cases hk : k = key
      · subst hk
        simp [Keyed.erase, Fields.set]
      · simpa [Keyed.erase, Fields.set, hk] using ih

/-! ## Changes that go along with gathering -/

/-- A change of entries and a change of the items' values that fit together: the plural of a key
gathers the changed values, and a plain key has the changed value. -/
structure Compatible (change each : String → Value → Value) : Prop where
  plain : ∀ {key}, isPlural key = false → ∀ v, change key v = each key v
  gathered : ∀ {key}, isPlural key = true → ∀ values,
    change (plural key) (.list values) = .list (values.map (each key))
  other : ∀ {key}, isPlural key = true → ∀ {v}, (∀ values, v ≠ .list values) →
    ∀ values, change (plural key) v ≠ .list values

/-- **ONE STEP**: an item is placed among changed entries as it is placed among the others and
changed. -/
theorem Compatible.place {change each : String → Value → Value} (h : Compatible change each)
    (top : Bool) (fields : Fields) (key : String) (v : Value) :
    place top (mapEntries change fields) key (each key v) =
      (Lookml.place top fields key v).map (mapEntries change) := by
  unfold Lookml.place
  cases hkey : isPlural key with
  | false =>
      simp only [Bool.false_eq_true, if_false, has_mapEntries, ← h.plain hkey, set_mapEntries]
      split <;> rfl
  | true =>
      rw [if_pos rfl, if_pos rfl, get?_mapEntries]
      have hset : ∀ values, Fields.set (mapEntries change fields) (plural key)
          (.list (values.map (each key))) =
            mapEntries change (Fields.set fields (plural key) (.list values)) := by
        intro values
        rw [← h.gathered hkey, set_mapEntries]
      -- A list that is there already is changed as a whole; what is no list stops both.
      cases hget : Fields.get? fields (plural key) with
      | none => exact congrArg Except.ok (hset [v])
      | some value =>
          cases value with
          | list values =>
              rw [Option.map_some, h.gathered hkey]
              simpa [Except.map] using hset (values ++ [v])
          | _ =>
              rw [Option.map_some]
              split
              · next heq => cases heq
              · next heq => exact absurd (Option.some.inj heq) (h.other hkey (by simp) _)
              · rfl

/-- Two items that a change of values cannot tell apart, the second of which has a value if the
first has. -/
def Alike (each : String → Value → Value) (item item' : Item) : Prop :=
  item.key = item'.key ∧ ∀ v, item.value = .ok v →
    ∃ v', item'.value = .ok v' ∧ each item.key v = each item.key v'

theorem Alike.refl (each : String → Value → Value) (item : Item) : Alike each item item :=
  ⟨rfl, fun v h => ⟨v, h, rfl⟩⟩

/-- A compatible change cannot tell the entries of such items apart. -/
theorem addAll_alike {change each : String → Value → Value} (h : Compatible change each)
    (top : Bool) {items items' : List Item} (hitems : List.Forall₂ (Alike each) items items')
    {acc acc' fields : Fields} (hacc : mapEntries change acc = mapEntries change acc')
    (hfields : Item.addAll top acc items = .ok fields) :
    ∃ fields', Item.addAll top acc' items' = .ok fields' ∧
      mapEntries change fields = mapEntries change fields' := by
  induction hitems generalizing acc acc' with
  | nil =>
      cases hfields
      exact ⟨acc', rfl, hacc⟩
  | cons hitem _ ih =>
      rename_i item item' items items' _
      obtain ⟨hkey, hvalue⟩ := hitem
      rw [Item.addAll] at hfields
      split at hfields
      · cases hfields
      next v hv =>
      split at hfields
      · cases hfields
      next acc₁ hplace =>
      obtain ⟨v', hv', hsame⟩ := hvalue v hv
      -- Placing succeeds for the other item too: both results have the same image.
      have hplaces := h.place top acc' item.key v'
      rw [← hsame, ← hacc, h.place, hplace] at hplaces
      cases hplace' : place top acc' item.key v' with
      | error fault => rw [hplace'] at hplaces; cases hplaces
      | ok acc₁' =>
          rw [hplace'] at hplaces
          obtain ⟨fields', hfields', hmap⟩ := ih (Except.ok.inj hplaces) hfields
          refine ⟨fields', ?_, hmap⟩
          rw [Item.addAll, hv', ← hkey]
          dsimp only
          rw [hplace']
          exact hfields'

/-! ## Changes of gathered elements -/

/-- Different plural keys have different plurals. -/
theorem plural_injective : ∀ key ∈ pluralKeys, ∀ key' ∈ pluralKeys,
    plural key = plural key' → key = key' := by decide +kernel

/-- Changes the elements of a list. -/
def changeElements (change : Value → Value) : Value → Value
  | .list values => .list (values.map change)
  | v => v

/-- Changes the elements that are gathered under a plural, by a change for each plural key. -/
def changeGathered (change : String → Value → Value) (key : String) (v : Value) : Value :=
  match pluralKeys.find? fun k => plural k = key with
  | some k => changeElements (change k) v
  | none => v

/-- The change under a plural is the one for its key. -/
theorem changeGathered_plural (change : String → Value → Value) {key : String}
    (hkey : isPlural key = true) (v : Value) :
    changeGathered change (plural key) v = changeElements (change key) v := by
  have hmem : key ∈ pluralKeys := by simpa [isPlural] using hkey
  have hfound : (pluralKeys.find? fun k => plural k = plural key) = some key := by
    cases hfind : pluralKeys.find? fun k => plural k = plural key with
    | none => simpa using List.find?_eq_none.mp hfind key hmem
    | some k =>
        have hplural : plural k = plural key := by simpa using List.find?_some hfind
        exact congrArg some (plural_injective k (List.mem_of_find?_eq_some hfind) key hmem hplural)
  rw [changeGathered, hfound]

/-- Changes the value of an item as its place among the gathered elements is changed. -/
def changeEach (change : String → Value → Value) (key : String) (v : Value) : Value :=
  if isPlural key then change key v else changeGathered change key v

/-- A change of gathered elements goes along with gathering. -/
theorem compatible_changeGathered (change : String → Value → Value) :
    Compatible (changeGathered change) (changeEach change) where
  plain hkey v := by rw [changeEach, hkey, if_neg (by simp)]
  gathered hkey values := by
    rw [changeGathered_plural change hkey, changeElements]
    exact congrArg Value.list (List.map_congr_left fun v _ => by rw [changeEach, if_pos hkey])
  other := by
    intro key hkey v hv values
    rw [changeGathered_plural change hkey]
    cases v with
    | list values => exact absurd rfl (hv values)
    | _ => simp [changeElements]

/-! ## What is gathered -/

/-- The entry under the plural of a key that has gathered some values: none before the first. -/
def gatheredEntry (values : List Value) : Option Value :=
  if values.isEmpty then none else some (.list values)

/-- An item with a plural key is added behind those that were gathered before it. -/
theorem place_plural {top : Bool} {fields fields' : Fields} {key : String} {v : Value}
    {values : List Value} (hkey : isPlural key = true)
    (hfields : Fields.get? fields (plural key) = gatheredEntry values)
    (h : place top fields key v = .ok fields') :
    Fields.get? fields' (plural key) = gatheredEntry (values ++ [v]) := by
  rw [place, if_pos hkey, hfields, gatheredEntry] at h
  cases values with
  | nil =>
      cases h
      rw [get?_set, if_pos rfl]
      rfl
  | cons first values =>
      cases h
      rw [get?_set, if_pos rfl]
      rfl

/-- Placing an item touches one key only. -/
theorem place_other {top : Bool} {fields fields' : Fields} {key key' : String} {v : Value}
    (hplain : isPlural key = false → key ≠ key') (hplural : isPlural key = true → plural key ≠ key')
    (h : place top fields key v = .ok fields') :
    Fields.get? fields' key' = Fields.get? fields key' := by
  rw [place] at h
  split at h
  · next hkey =>
      split at h
      · cases h; rw [get?_set, if_neg (hplural hkey)]
      · cases h; rw [get?_set, if_neg (hplural hkey)]
      · cases h
  · next hkey =>
      split at h
      · cases h
      · cases h; rw [get?_set, if_neg (hplain (by simpa using hkey))]

/-- The values of further items are gathered behind those before. -/
theorem gathered_onto {top : Bool} {key : String} (hkey : isPlural key = true) {items : List Item}
    (hitems : ∀ item ∈ items, item.key ≠ plural key) {acc fields : Fields} {before : List Value}
    (hacc : Fields.get? acc (plural key) = gatheredEntry before)
    (h : Item.addAll top acc items = .ok fields) :
    ∃ values, List.Forall₂ (fun item v => Item.value item = .ok v)
        (items.filter fun item => item.key = key) values ∧
      Fields.get? fields (plural key) = gatheredEntry (before ++ values) := by
  -- The invariant is what stands under the plural so far.
  induction items generalizing acc before with
  | nil =>
      cases h
      exact ⟨[], .nil, by rw [List.append_nil, hacc]⟩
  | cons item items ih =>
      rw [Item.addAll] at h
      split at h
      · cases h
      next v hv =>
      split at h
      · cases h
      next acc₁ hplace =>
      have hrest : ∀ item ∈ items, item.key ≠ plural key :=
        fun i hi => hitems i (List.mem_cons_of_mem _ hi)
      by_cases hsame : item.key = key
      · have hacc₁ : Fields.get? acc₁ (plural key) = gatheredEntry (before ++ [v]) := by
          rw [hsame] at hplace
          exact place_plural hkey hacc hplace
        obtain ⟨values, hvalues, hget⟩ := ih hrest hacc₁ h
        refine ⟨v :: values, ?_, by simpa using hget⟩
        rw [List.filter_cons_of_pos (by simpa using hsame)]
        exact .cons hv hvalues
      -- No other key has the same plural.
      · have hother : Fields.get? acc₁ (plural key) = gatheredEntry before := by
          rw [← hacc]
          refine place_other (fun _ => hitems item List.mem_cons_self) ?_ hplace
          intro hplural heq
          exact hsame (plural_injective item.key (by simpa [isPlural] using hplural) key
            (by simpa [isPlural] using hkey) heq)
        obtain ⟨values, hvalues, hget⟩ := ih hrest hother h
        refine ⟨values, ?_, hget⟩
        rwa [List.filter_cons_of_neg (by simpa using hsame)]

/-- Under the plural of a key stand the values of all items with that key, in order, if no item has
the plural itself as its key. -/
theorem gathered {top : Bool} {key : String} (hkey : isPlural key = true) {items : List Item}
    (hitems : ∀ item ∈ items, item.key ≠ plural key) {fields : Fields}
    (h : Item.addAll top [] items = .ok fields) :
    ∃ values, List.Forall₂ (fun item v => Item.value item = .ok v)
        (items.filter fun item => item.key = key) values ∧
      Fields.get? fields (plural key) = gatheredEntry values :=
  gathered_onto hkey hitems (by rfl : _ = gatheredEntry []) h

/-- A key that no item has, and no plural of one, has no entry. -/
theorem get?_addAll_of_not_mem {top : Bool} {key : String}
    (hplural : ∀ k ∈ pluralKeys, plural k ≠ key) {items : List Item}
    (hitems : ∀ item ∈ items, item.key ≠ key) {acc fields : Fields}
    (h : Item.addAll top acc items = .ok fields) :
    Fields.get? fields key = Fields.get? acc key := by
  induction items generalizing acc with
  | nil => cases h; rfl
  | cons item items ih =>
      rw [Item.addAll] at h
      split at h
      · cases h
      next v hv =>
      split at h
      · cases h
      next acc₁ hplace =>
      rw [ih (fun i hi => hitems i (List.mem_cons_of_mem _ hi)) h]
      exact place_other (fun _ => hitems item List.mem_cons_self)
        (fun hp => hplural _ (by simpa [isPlural] using hp)) hplace

/-! ## Entries that differ in one key -/

section OneKey

variable {top : Bool} {key : String}

/-- An item is placed alike among entries that differ in another key. -/
theorem place_of_erase_eq {acc acc' fields : Fields} {key' : String} {v : Value}
    (hkey : key' ≠ key) (hplural : isPlural key' = true → plural key' ≠ key)
    (hacc : Keyed.erase acc key = Keyed.erase acc' key) (h : place top acc key' v = .ok fields) :
    ∃ fields', place top acc' key' v = .ok fields' ∧
      Keyed.erase fields key = Keyed.erase fields' key := by
  have hset : ∀ {k : String} (value : Value), k ≠ key →
      Keyed.erase (Fields.set acc k value) key = Keyed.erase (Fields.set acc' k value) key := by
    intro k value hk
    rw [erase_set hk, erase_set hk, hacc]
  have hget : ∀ {k : String}, k ≠ key → Fields.get? acc k = Fields.get? acc' k := by
    intro k hk
    rw [← get?_erase hk acc, hacc, get?_erase hk]
  -- The place looks at one key, under which both have the same.
  unfold place at h ⊢
  split at h
  · next hp =>
      rw [if_pos hp, ← hget (hplural hp)]
      split at h
      · cases h; exact ⟨_, rfl, hset _ (hplural hp)⟩
      · cases h; exact ⟨_, rfl, hset _ (hplural hp)⟩
      · cases h
  · next hp =>
      rw [if_neg hp, Fields.has, ← hget hkey]
      rw [Fields.has] at h
      split at h
      · cases h
      · next hnew =>
          cases h
          exact ⟨_, if_neg hnew, hset _ hkey⟩

/-- Items without a key do not see it in the entries before them. -/
theorem addAll_of_erase_eq (hplural : ∀ k ∈ pluralKeys, plural k ≠ key) {items : List Item}
    (hitems : ∀ item ∈ items, item.key ≠ key) {acc acc' fields : Fields}
    (hacc : Keyed.erase acc key = Keyed.erase acc' key)
    (h : Item.addAll top acc items = .ok fields) :
    ∃ fields', Item.addAll top acc' items = .ok fields' ∧
      Keyed.erase fields key = Keyed.erase fields' key := by
  induction items generalizing acc acc' with
  | nil =>
      cases h
      exact ⟨acc', rfl, hacc⟩
  | cons item items ih =>
      rw [Item.addAll] at h
      split at h
      · cases h
      next v hv =>
      split at h
      · cases h
      next acc₁ hplace =>
      obtain ⟨acc₁', hplace', hacc₁⟩ := place_of_erase_eq (hitems item List.mem_cons_self)
        (fun hp => hplural _ (by simpa [isPlural] using hp)) hacc hplace
      obtain ⟨fields', hfields', herase⟩ :=
        ih (fun i hi => hitems i (List.mem_cons_of_mem _ hi)) hacc₁ h
      refine ⟨fields', ?_, herase⟩
      rw [Item.addAll, hv]
      dsimp only
      rw [hplace']
      exact hfields'

end OneKey

/-- Items that have entries have values. -/
theorem value_of_addAll {top : Bool} {items : List Item} {acc fields : Fields}
    (h : Item.addAll top acc items = .ok fields) : ∀ item ∈ items, ∃ v, item.value = .ok v := by
  induction items generalizing acc with
  | nil => intro item hitem; exact nomatch hitem
  | cons first items ih =>
      rw [Item.addAll] at h
      split at h
      · cases h
      next v hv =>
      split at h
      · cases h
      intro item hitem
      rcases List.mem_cons.mp hitem with rfl | hmem
      · exact ⟨v, hv⟩
      · exact ih h item hmem

/-- Items in two parts are added part by part. -/
theorem addAll_append (top : Bool) (acc : Fields) (items items' : List Item) :
    Item.addAll top acc (items ++ items') =
      (Item.addAll top acc items).bind fun fields => Item.addAll top fields items' := by
  induction items generalizing acc with
  | nil => rfl
  | cons item items ih =>
      rw [List.cons_append, Item.addAll, Item.addAll]
      cases item.value with
      | error fault => rfl
      | ok v =>
          dsimp only
          cases place top acc item.key v with
          | error fault => rfl
          | ok acc₁ => exact ih acc₁

end LookmlProject.Lookml
