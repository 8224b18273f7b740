import LookmlProject.Proofs.Entries
import LookmlProject.Update

/-!
# Descriptions in the entries of a document

What a new description of a field changes in the entries of a document, and how it is found there.

  * `bareBody` are the entries of a document without the descriptions of chosen fields; a new
    description of such a field, in place of the old one or anywhere if there is none, does not
    change them (`sameBut_described`, `bareBody_eq`);
  * the description that is looked up for a field is the one among its own items
    (`findDescription_eq`).
-/

namespace LookmlProject.Update

open Lookml Value

/-! ## Documents without some descriptions -/

/-- A field without its description, if its name is chosen. -/
def bareField (chosen : String → Bool) : Value → Value
  | .record fields =>
    match Fields.get? fields "name" with
    | some (.text name) =>
      if chosen name then .record (Keyed.erase fields "description") else .record fields
    | _ => .record fields
  | v => v

/-- The change of the fields of a view that takes out chosen descriptions. -/
def bareKind (chosen : String → String → Bool) (kind : String) : Value → Value :=
  if kind ∈ fieldKinds then bareField (chosen kind) else id

/-- A view without the descriptions of its fields whose kind and name are chosen. -/
def bareView (chosen : String → String → Bool) : Value → Value
  | .record fields => .record (mapEntries (changeGathered (bareKind chosen)) fields)
  | v => v

/-- The entries of a document without the descriptions of the fields of its views whose kind and
name are chosen. -/
def bareBody (chosen : String → String → Bool) (body : Fields) : Fields :=
  mapEntries (changeGathered fun key => if key = "view" then bareView chosen else id) body

/-! ## The description of a field -/

theorem plural_ne_description : ∀ key ∈ pluralKeys, plural key ≠ "description" := by decide

theorem isPlural_description : isPlural "description" = false := by decide

/-- Items that are no descriptions. -/
def NoDescription (items : List Item) : Prop := ∀ item ∈ items, item.key ≠ "description"

instance (items : List Item) : Decidable (NoDescription items) :=
  inferInstanceAs (Decidable (∀ item ∈ items, item.key ≠ "description"))

/-- A description is put among the entries if there is none yet. -/
theorem place_description {acc fields : Fields} {v : Value}
    (h : place false acc "description" v = .ok fields) :
    Fields.has acc "description" = false ∧ fields = Fields.set acc "description" v := by
  rw [place, if_neg (by simp [isPlural_description])] at h
  split at h
  · cases h
  · next hnew =>
      cases h
      exact ⟨by simpa using hnew, rfl⟩

/-- The entries of items with a description. -/
theorem addAll_description {above below : List Item} {text : String} {fields : Fields}
    (h : Item.addAll false [] (above ++ .pair "description" text :: below) = .ok fields) :
    ∃ acc, Item.addAll false [] above = .ok acc ∧ Fields.has acc "description" = false ∧
      Item.addAll false (Fields.set acc "description" (.text text)) below = .ok fields := by
  rw [addAll_append] at h
  cases habove : Item.addAll false [] above with
  | error fault => rw [habove] at h; cases h
  | ok acc =>
      rw [habove] at h
      dsimp only [Except.bind] at h
      rw [Item.addAll] at h
      split at h
      · cases h
      next v hv =>
      cases hv
      split at h
      · cases h
      next acc₁ hplace =>
      obtain ⟨hnew, rfl⟩ := place_description hplace
      exact ⟨acc, rfl, hnew, h⟩

theorem get?_description {above below : List Item} {text : String} (hbelow : NoDescription below)
    {fields : Fields}
    (h : Item.addAll false [] (above ++ .pair "description" text :: below) = .ok fields) :
    Fields.get? fields "description" = some (.text text) := by
  obtain ⟨acc, _, _, hfields⟩ := addAll_description h
  rw [get?_addAll_of_not_mem plural_ne_description hbelow hfields, get?_set, if_pos rfl]

theorem get?_no_description {items : List Item} (hitems : NoDescription items) {fields : Fields}
    (h : Item.addAll false [] items = .ok fields) : Fields.get? fields "description" = none :=
  get?_addAll_of_not_mem plural_ne_description hitems h

/-- Two versions of the items of a field: the second has entries if the first has, and they differ
in the description at most. -/
def SameBut (items items' : List Item) : Prop :=
  ∀ fields, Item.addAll false [] items = .ok fields →
    ∃ fields', Item.addAll false [] items' = .ok fields' ∧
      Keyed.erase fields "description" = Keyed.erase fields' "description"

theorem SameBut.refl (items : List Item) : SameBut items items := fun fields h => ⟨fields, h, rfl⟩

/-- A description is read where there is none above it. -/
theorem addAll_new_description {above : List Item} {acc : Fields} (below : List Item) (new : String)
    (habove : Item.addAll false [] above = .ok acc) (hnone : Fields.has acc "description" = false) :
    Item.addAll false [] (above ++ .pair "description" new :: below) =
      Item.addAll false (Fields.set acc "description" (.text new)) below := by
  rw [addAll_append, habove]
  dsimp only [Except.bind]
  rw [Item.addAll, Item.value]
  dsimp only
  rw [place, Item.key, if_neg (by simp [isPlural_description]), if_neg (by simp [hnone])]

/-- A description in place of another. -/
theorem sameBut_replaced {above below : List Item} (hbelow : NoDescription below)
    (old new : String) :
    SameBut (above ++ .pair "description" old :: below)
      (above ++ .pair "description" new :: below) := by
  intro fields hfields
  obtain ⟨acc, habove, hnew, hrest⟩ := addAll_description hfields
  have hacc : Keyed.erase (Fields.set acc "description" (.text old)) "description" =
      Keyed.erase (Fields.set acc "description" (.text new)) "description" := by
    rw [erase_set_same, erase_set_same]
  obtain ⟨fields', hfields', herase⟩ :=
    addAll_of_erase_eq plural_ne_description hbelow hacc hrest
  exact ⟨fields', (addAll_new_description below new habove hnew).trans hfields', herase⟩

/-- A description somewhere in a field that has none. -/
theorem sameBut_added {above below : List Item} (h : NoDescription (above ++ below))
    (new : String) :
    SameBut (above ++ below) (above ++ .pair "description" new :: below) := by
  intro fields hfields
  have habove : NoDescription above := fun item hitem => h item (List.mem_append_left _ hitem)
  have hbelow : NoDescription below := fun item hitem => h item (List.mem_append_right _ hitem)
  rw [addAll_append] at hfields
  cases hacc : Item.addAll false [] above with
  | error fault => rw [hacc] at hfields; cases hfields
  | ok acc =>
      rw [hacc] at hfields
      have hnone : Fields.has acc "description" = false := by
        rw [Fields.has, get?_no_description habove hacc, Option.isSome_none]
      have herase := (erase_set_same acc "description" (.text new)).symm
      obtain ⟨fields', hfields', hsame⟩ :=
        addAll_of_erase_eq plural_ne_description hbelow herase hfields
      exact ⟨fields', (addAll_new_description below new hacc hnone).trans hfields', hsame⟩

/-- A description that may be there, as an item of a field. -/
def oldItem (old : Option String) : List Item := old.toList.map (Item.pair "description")

/-- A new description in the place of the old one, or anywhere if there is none. -/
theorem sameBut_described {above below : List Item} (h : NoDescription (above ++ below))
    (old : Option String) (new : String) :
    SameBut (above ++ (oldItem old ++ below)) (above ++ .pair "description" new :: below) := by
  cases old with
  | none => exact sameBut_added h new
  | some text =>
      exact sameBut_replaced (fun item hitem => h item (List.mem_append_right _ hitem)) text new

/-! ## The fields of a view -/

theorem isPlural_fieldKinds : ∀ kind ∈ fieldKinds, isPlural kind = true := by decide

theorem plural_fieldKinds : ∀ kind ∈ fieldKinds, plural kind = kind ++ "s" := by decide

theorem isPlural_view : isPlural "view" = true := by decide

/-- The value of a block with a name. -/
theorem value_block {key name : String} {items : List Item} {v : Value}
    (h : (Item.block key (some name) items).value = .ok v) :
    ∃ fields, Item.addAll false [] items = .ok fields ∧
      v = .record (Fields.set fields "name" (.text name)) := by
  rw [Item.value] at h
  split at h
  · cases h
  next fields hfields =>
  cases h
  exact ⟨fields, hfields, rfl⟩

theorem value_block_of_addAll {key name : String} {items : List Item} {fields : Fields}
    (h : Item.addAll false [] items = .ok fields) :
    (Item.block key (some name) items).value =
      .ok (.record (Fields.set fields "name" (.text name))) := by
  rw [Item.value, h]

/-- Fields that differ in the description at most cannot be told apart without it. -/
theorem alike_field {chosen : String → String → Bool} {kind name : String}
    (hkind : kind ∈ fieldKinds) (hchosen : chosen kind name = true) {items items' : List Item}
    (h : SameBut items items') :
    Alike (changeEach (bareKind chosen)) (.block kind (some name) items)
      (.block kind (some name) items') := by
  refine ⟨rfl, fun v hv => ?_⟩
  obtain ⟨fields, hfields, rfl⟩ := value_block hv
  obtain ⟨fields', hfields', herase⟩ := h fields hfields
  refine ⟨_, value_block_of_addAll hfields', ?_⟩
  have hbare : ∀ f : Fields, changeEach (bareKind chosen) kind
      (.record (Fields.set f "name" (.text name))) =
        .record (Fields.set (Keyed.erase f "description") "name" (.text name)) := by
    intro f
    rw [changeEach, if_pos (isPlural_fieldKinds kind hkind), bareKind, if_pos hkind, bareField,
      get?_set, if_pos rfl]
    dsimp only
    rw [if_pos hchosen, erase_set (by decide)]
  show changeEach (bareKind chosen) kind _ = changeEach (bareKind chosen) kind _
  rw [hbare, hbare, herase]

/-- Views whose items cannot be told apart without some descriptions cannot be told apart
themselves. -/
theorem alike_view {chosen : String → String → Bool} (name : String) {items items' : List Item}
    (h : List.Forall₂ (Alike (changeEach (bareKind chosen))) items items') :
    Alike (changeEach fun key => if key = "view" then bareView chosen else id)
      (.block "view" (some name) items) (.block "view" (some name) items') := by
  refine ⟨rfl, fun v hv => ?_⟩
  obtain ⟨fields, hfields, rfl⟩ := value_block hv
  obtain ⟨fields', hfields', hmap⟩ :=
    addAll_alike (compatible_changeGathered (bareKind chosen)) false h rfl hfields
  refine ⟨_, value_block_of_addAll hfields', ?_⟩
  show changeEach _ "view" _ = changeEach _ "view" _
  rw [changeEach, if_pos isPlural_view, if_pos rfl, changeEach, if_pos isPlural_view, if_pos rfl,
    bareView, bareView, ← set_mapEntries, ← set_mapEntries, hmap]

/-- The entries of a document with one view, without some descriptions, do not depend on those. -/
theorem bareBody_eq {chosen : String → String → Bool} {before after items items' : List Item}
    {name : String} (h : List.Forall₂ (Alike (changeEach (bareKind chosen))) items items')
    {body : Fields}
    (hbody : Item.fields (before ++ .block "view" (some name) items :: after) = .ok body) :
    ∃ body', Item.fields (before ++ .block "view" (some name) items' :: after) = .ok body' ∧
      bareBody chosen body = bareBody chosen body' := by
  have hrefl : ∀ items : List Item, List.Forall₂
      (Alike (changeEach fun key => if key = "view" then bareView chosen else id)) items items :=
    fun items => List.forall₂_same.mpr fun item _ => Alike.refl _ item
  exact addAll_alike (compatible_changeGathered _) true
    (List.rel_append (hrefl before) (.cons (alike_view name h) (hrefl after))) rfl hbody

/-! ## Looking a description up -/

theorem text_beq (s t : String) : (Value.text s == Value.text t) = (s == t) := by
  show Value.same (.text s) (.text t) = _
  rw [Value.same]

theorem lookup_name (fields : Fields) (name : String) :
    (Value.record (Fields.set fields "name" (.text name))).lookup "name" = .ok (.text name) := by
  rw [Value.lookup, get?_set, if_pos rfl]

/-- Among blocks with names, the first with a name is the field of that name. -/
theorem fieldNamed_blocks {kind name : String} {body rest : List Item} {fields : Fields}
    (hbody : Item.addAll false [] body = .ok fields) {first : List Item}
    (hfirst : ∀ item ∈ first, ∃ other inner, item = .block kind (some other) inner ∧ other ≠ name)
    {values : List Value}
    (h : List.Forall₂ (fun item v => Item.value item = .ok v)
      (first ++ .block kind (some name) body :: rest) values) :
    fieldNamed (.text name) values =
      .ok (some (.record (Fields.set fields "name" (.text name)))) := by
  induction first generalizing values with
  | nil =>
      cases h with
      | cons hv _ =>
          rw [value_block_of_addAll hbody] at hv
          cases hv
          rw [fieldNamed, lookup_name]
          simp [text_beq, bind, Except.bind, pure, Except.pure]
  | cons item first ih =>
      obtain ⟨other, inner, rfl, hne⟩ := hfirst item List.mem_cons_self
      cases h with
      | cons hv hvalues =>
          obtain ⟨fields', _, rfl⟩ := value_block hv
          have hrest := ih (fun i hi => hfirst i (List.mem_cons_of_mem _ hi)) hvalues
          rw [fieldNamed, lookup_name]
          simpa [text_beq, hne, bind, Except.bind] using hrest

/-- The answer for a field with these entries: its description and whether it has one. -/
def answer (fields : Fields) : Value × Bool :=
  match Fields.get? fields "description" with
  | some description => (description, true)
  | none => (.text "", false)

/-- The view of a document that has one. -/
theorem views_eq {before after items : List Item} {name : String} {body : Fields}
    (hbody : Item.fields (before ++ .block "view" (some name) items :: after) = .ok body)
    (houter : ∀ item ∈ before ++ after, item.key ≠ "view" ∧ item.key ≠ "views") :
    ∃ fields, Item.addAll false [] items = .ok fields ∧ Fields.get? body "views" =
      some (.list [.record (Fields.set fields "name" (.text name))]) := by
  have hnone : ∀ outer ⊆ before ++ after, (outer.filter fun item => item.key = "view") = [] := by
    intro outer hsub
    rw [List.filter_eq_nil_iff]
    exact fun item hitem => by simpa using (houter item (hsub hitem)).1
  have hfilter : ((before ++ .block "view" (some name) items :: after).filter
      fun item => item.key = "view") = [.block "view" (some name) items] := by
    rw [List.filter_append, List.filter_cons_of_pos (by simp [Item.key]),
      hnone before (by simp), hnone after (by simp), List.nil_append]
  have hplural : ∀ item ∈ before ++ .block "view" (some name) items :: after,
      item.key ≠ plural "view" := by
    intro item hitem
    rcases List.mem_append.mp hitem with hmem | hmem
    · exact (houter item (List.mem_append_left _ hmem)).2
    · rcases List.mem_cons.mp hmem with rfl | hmem
      · show "view" ≠ plural "view"
        decide
      · exact (houter item (List.mem_append_right _ hmem)).2
  obtain ⟨values, hvalues, hget⟩ := gathered isPlural_view hplural hbody
  rw [hfilter] at hvalues
  cases hvalues with
  | cons hv hrest =>
      cases hrest
      obtain ⟨fields, hfields, rfl⟩ := value_block hv
      exact ⟨fields, hfields, hget⟩

/-- The fields of a kind in a view, and the first of them with a name. -/
theorem fields_of_kind {first rest body : List Item} {kind name : String}
    (hkind : kind ∈ fieldKinds) (hinner : ∀ item ∈ first ++ rest, item.key ≠ kind ++ "s")
    (hfirst : ∀ item ∈ first, item.key = kind →
      ∃ other inner, item = .block kind (some other) inner ∧ other ≠ name)
    {view : Fields}
    (hview : Item.addAll false [] (first ++ .block kind (some name) body :: rest) = .ok view) :
    ∃ fields values, Item.addAll false [] body = .ok fields ∧
      Fields.get? view (kind ++ "s") = some (.list values) ∧
      fieldNamed (.text name) values =
        .ok (some (.record (Fields.set fields "name" (.text name)))) := by
  obtain ⟨v, hv⟩ := value_of_addAll hview (.block kind (some name) body) (by simp)
  obtain ⟨fields, hfields, rfl⟩ := value_block hv
  have hplural : ∀ item ∈ first ++ .block kind (some name) body :: rest,
      item.key ≠ plural kind := by
    intro item hitem
    rw [plural_fieldKinds kind hkind]
    rcases List.mem_append.mp hitem with hmem | hmem
    · exact hinner item (List.mem_append_left _ hmem)
    · rcases List.mem_cons.mp hmem with rfl | hmem
      · exact (by decide : ∀ k ∈ fieldKinds, k ≠ k ++ "s") kind hkind
      · exact hinner item (List.mem_append_right _ hmem)
  obtain ⟨values, hvalues, hget⟩ := gathered (isPlural_fieldKinds kind hkind) hplural hview
  rw [List.filter_append, List.filter_cons_of_pos (by simp [Item.key])] at hvalues
  have hnamed := fieldNamed_blocks hfields (fun item hitem => by
    have hmem := List.mem_filter.mp hitem
    exact hfirst item hmem.1 (by simpa using hmem.2)) hvalues
  refine ⟨fields, values, hfields, ?_, hnamed⟩
  rw [← plural_fieldKinds kind hkind, hget, gatheredEntry]
  cases values with
  | nil => cases hnamed
  | cons v values => rfl

/-- The description that is looked up is that of the first field of the kind and name. -/
theorem findDescription_eq {doc : Document} (hview : doc.kind = .view)
    {before after first rest body : List Item} {viewName kind name : String}
    (hbody : Item.fields (before ++ .block "view" (some viewName)
      (first ++ .block kind (some name) body :: rest) :: after) = .ok doc.body)
    (houter : ∀ item ∈ before ++ after, item.key ≠ "view" ∧ item.key ≠ "views")
    (hkind : kind ∈ fieldKinds)
    (hinner : ∀ item ∈ first ++ rest, item.key ≠ kind ++ "s")
    (hfirst : ∀ item ∈ first, item.key = kind →
      ∃ other inner, item = .block kind (some other) inner ∧ other ≠ name) :
    ∃ fields, Item.addAll false [] body = .ok fields ∧
      findDescription doc (.text kind) (.text name) = .ok (answer fields) := by
  obtain ⟨view, hviewFields, hviews⟩ := views_eq hbody houter
  obtain ⟨fields, values, hfields, hvalues, hnamed⟩ :=
    fields_of_kind hkind hinner hfirst hviewFields
  have hdocViews : doc.views = .list [.record (Fields.set view "name" (.text viewName))] := by
    rw [Document.views, Document.views?, hviews, Option.getD_some]
  have hcount : doc.views.length = .ok 1 := by rw [hdocViews]; rfl
  have hnth : doc.views.nth 0 = .ok (.record (Fields.set view "name" (.text viewName))) := by
    rw [hdocViews]
    rfl
  have hknown : fieldKinds.any ((Value.text kind).isText ·) = true := by
    rw [List.any_eq_true]
    exact ⟨kind, hkind, by simp [Value.isText]⟩
  -- The name of a view or field is set last, and is none of the entries looked up.
  have hget : Fields.get? (Fields.set view "name" (.text viewName)) (kind ++ "s") =
      some (.list values) := by
    rw [get?_set, if_neg, hvalues]
    exact (by decide : ∀ k ∈ fieldKinds, "name" ≠ k ++ "s") kind hkind
  have hdescription : Fields.get? (Fields.set fields "name" (.text name)) "description" =
      Fields.get? fields "description" := by
    rw [get?_set, if_neg (by decide)]
  refine ⟨fields, hfields, ?_⟩
  simp only [findDescription, hview, hcount, hnth, hknown, bind, Except.bind, pure, Except.pure,
    Value.display, Value.has, Value.holds, Fields.has, Value.lookup, hget, Value.elements, hnamed,
    hdescription, answer]
  cases Fields.get? fields "description" <;> rfl

end LookmlProject.Update
