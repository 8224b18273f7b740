import LookmlProject.Proofs.Insertion
import LookmlProject.Proofs.RoundTrip

/-!
# Edits that stay within their field

An edit finds its field by the lines, and the parser by the tokens.  Whatever the layout of a
document, an update changes nothing but the description of its field if both find the same place:

  * `soleDescription?` finds the description of the only field of a kind and name in the only view
    of a document, and a `Spot` is such a field with the items around it (`exists_spot`);
  * where lines inside the field are replaced by a description, the document is read with that
    description in the field (`Spot.Sole.parse_described`);
  * `Placed` says that the edit is made at such a place, `Unmet` that it finds no line to be made
    at, and either way the update is contained in the field (`run_contained`);
  * a field on one line is neither, nor is one with its description on the line of its header
    (`oneLine_not_contained`).
-/

namespace LookmlProject.Update

open Lookml Edit Value

/-! ## A field among the items of a document -/

/-- A field in a view of a document: the items around the view, those around the field, and its
own. -/
structure Spot where
  before : List Item
  title : String
  first : List Item
  own : List Item
  rest : List Item
  after : List Item

namespace Spot

variable {spot : Spot} {entry : Entry}

/-- The items of the view. -/
def inner (spot : Spot) (entry : Entry) : List Item :=
  spot.first ++ .block entry.kind (some entry.name) spot.own :: spot.rest

/-- The items of the document. -/
def items (spot : Spot) (entry : Entry) : List Item :=
  spot.before ++ .block "view" (some spot.title) (spot.inner entry) :: spot.after

/-- The document with other items in the field. -/
def withOwn (spot : Spot) (own : List Item) : Spot := { spot with own := own }

/-- The view is the only one of the document, and the field the only one of its kind and name. -/
structure Sole (spot : Spot) (entry : Entry) : Prop where
  kind : entry.kind ∈ fieldKinds
  view : ∀ item ∈ spot.before ++ spot.after, item.key ≠ "view" ∧ item.key ≠ "views"
  plural : ∀ item ∈ spot.first ++ spot.rest, item.key ≠ entry.kind ++ "s"
  named : ∀ item ∈ spot.first ++ spot.rest, item.key = entry.kind →
    ∃ other inner, item = .block entry.kind (some other) inner ∧ other ≠ entry.name

/-- Other items in the field leave it the only one. -/
theorem Sole.withOwn (h : spot.Sole entry) (own : List Item) : (spot.withOwn own).Sole entry :=
  ⟨h.kind, h.view, h.plural, h.named⟩

/-- A field of the kind and name in a view of the document is the field. -/
theorem Sole.eq (h : spot.Sole entry) {before first own rest after : List Item} {title : String}
    (hitems : spot.items entry = before ++ .block "view" (some title)
      (first ++ .block entry.kind (some entry.name) own :: rest) :: after) :
    spot = ⟨before, title, first, own, rest, after⟩ := by
  -- The view occurs once in the document, so it is cut at the same place; the same holds of the
  -- field.
  have hview : ∀ outer ⊆ spot.before ++ spot.after, Item.block "view" (some title)
      (first ++ .block entry.kind (some entry.name) own :: rest) ∉ outer :=
    fun outer hsub hmem => (h.view _ (hsub hmem)).1 rfl
  obtain ⟨hbefore, hblock, hafter⟩ := (List.append_cons_inj_of_notMem (hview _ (by simp))
    (hview _ (by simp))).mp hitems
  injection hblock with _ htitle hinner
  have hfield : ∀ others ⊆ spot.first ++ spot.rest,
      Item.block entry.kind (some entry.name) own ∉ others := by
    intro others hsub hmem
    obtain ⟨other, _, hsame, hne⟩ := h.named _ (hsub hmem) rfl
    injection hsame with _ hname
    exact hne (Option.some.inj hname).symm
  obtain ⟨hfirst, hown, hrest⟩ := (List.append_cons_inj_of_notMem (hfield _ (by simp))
    (hfield _ (by simp))).mp hinner
  injection hown with _ _ hown
  obtain ⟨_, _, _, _, _, _⟩ := spot
  cases hbefore
  cases htitle
  cases hfirst
  cases hown
  cases hrest
  cases hafter
  rfl

/-- The field has this description, or none. -/
def DescribedBy (spot : Spot) (old : Option String) : Prop :=
  (spot.own.filter fun item => item.key = "description") = oldItem old

end Spot

/-! ## Finding the field -/

/-- The one element of a list that passes a test. -/
def only? {α : Type} (test : α → Bool) (l : List α) : Option α :=
  match l.filter test with
  | [x] => some x
  | _ => none

/-- The one element is found, and all others fail the test. -/
theorem eq_of_only? {α : Type} {test : α → Bool} {l : List α} {x : α} (h : only? test l = some x) :
    test x = true ∧ ∃ first rest, l = first ++ x :: rest ∧
      ∀ y ∈ first ++ rest, test y = false := by
  rw [only?] at h
  split at h
  · next y hfilter =>
      cases h
      obtain ⟨first, rest, rfl, hfirst, htest, hrest⟩ := List.filter_eq_cons_iff.mp hfilter
      refine ⟨htest, first, rest, rfl, fun y hy => ?_⟩
      rcases List.mem_append.mp hy with hmem | hmem
      · exact Bool.eq_false_iff.mpr (hfirst y hmem)
      · exact Bool.eq_false_iff.mpr (List.filter_eq_nil_iff.mp hrest y hmem)
  · cases h

/-- The title and the items of the only view of a document. -/
def soleView? (items : List Item) : Option (String × List Item) :=
  match only? (fun item => item.key == "view" || item.key == "views") items with
  | some (.block key (some title) inner) => if key = "view" then some (title, inner) else none
  | _ => none

/-- Whether an item is the field of a kind and name. -/
def isField (kind name : String) : Item → Bool
  | .block key (some title) _ => key == kind && title == name
  | _ => false

/-- Whether an item is a field with a name, if it is of the kind. -/
def namedIf (kind : String) : Item → Bool
  | .block key (some _) _ => key != kind ++ "s"
  | item => item.key != kind ++ "s" && item.key != kind

/-- The items of the only field of a kind and name in a view. -/
def soleField? (kind name : String) (inner : List Item) : Option (List Item) :=
  match only? (isField kind name) inner with
  | some (.block _ _ own) => if inner.all (namedIf kind) then some own else none
  | _ => none

/-- The description of a field, if it has at most one and that is a text. -/
def soleText? (own : List Item) : Option (Option String) :=
  match own.filter fun item => item.key = "description" with
  | [] => some none
  | [.pair _ old] => some (some old)
  | _ => none

/-- The description of the only field of a kind and name in the only view of a document: `none` if
the document has not one such field, or no text as its description. -/
def soleDescription? (kind name : String) (items : List Item) : Option (Option String) := do
  let view ← soleView? items
  let own ← soleField? kind name view.2
  soleText? own

/-- The field of a kind and name has both. -/
theorem eq_of_isField {kind name key : String} {title : Option String} {own : List Item}
    (h : isField kind name (.block key title own) = true) : key = kind ∧ title = some name := by
  cases title with
  | none => cases h
  | some title => simpa [isField] using h

theorem key_ne_of_namedIf {kind : String} {item : Item} (h : namedIf kind item = true) :
    item.key ≠ kind ++ "s" := by
  unfold namedIf at h
  split at h
  · simpa [Item.key] using h
  · simp only [Bool.and_eq_true, bne_iff_ne] at h
    exact h.1

/-- An item of the kind is a block with a name. -/
theorem eq_block_of_namedIf {kind : String} {item : Item} (h : namedIf kind item = true)
    (hkey : item.key = kind) : ∃ name items, item = .block kind (some name) items := by
  unfold namedIf at h
  split at h
  · next key name items =>
      obtain rfl : key = kind := hkey
      exact ⟨name, items, rfl⟩
  · simp only [Bool.and_eq_true, bne_iff_ne] at h
    exact absurd hkey h.2

/-- The description that is found is the only one of the field. -/
theorem eq_of_soleText? {own : List Item} {old : Option String} (h : soleText? own = some old) :
    (own.filter fun item => item.key = "description") = oldItem old := by
  rw [soleText?] at h
  split at h
  · next hnone => cases h; exact hnone
  · next key old hone =>
      cases h
      have hmem : Item.pair key old ∈ own.filter fun item => item.key = "description" := by
        simp [hone]
      obtain rfl : key = "description" := of_decide_eq_true (List.mem_filter.mp hmem).2
      exact hone
  · cases h

/-- The view that is found is the only one, and no other item gathers views. -/
theorem eq_of_soleView? {items inner : List Item} {title : String}
    (h : soleView? items = some (title, inner)) :
    ∃ before after, items = before ++ .block "view" (some title) inner :: after ∧
      ∀ item ∈ before ++ after, item.key ≠ "view" ∧ item.key ≠ "views" := by
  rw [soleView?] at h
  split at h
  · next key title' inner' honly =>
      split at h
      · next hkey =>
          cases h
          obtain rfl := hkey
          obtain ⟨_, before, after, hitems, hothers⟩ := eq_of_only? honly
          exact ⟨before, after, hitems, fun item hitem => by simpa using hothers item hitem⟩
      · cases h
  · cases h

/-- The field that is found is the only one of its kind and name. -/
theorem eq_of_soleField? {kind name : String} {inner own : List Item}
    (h : soleField? kind name inner = some own) :
    ∃ first rest, inner = first ++ .block kind (some name) own :: rest ∧
      (∀ item ∈ first ++ rest, item.key ≠ kind ++ "s") ∧
      ∀ item ∈ first ++ rest, item.key = kind →
        ∃ other items, item = .block kind (some other) items ∧ other ≠ name := by
  rw [soleField?] at h
  split at h
  · next key title own' honly =>
      split at h
      · next hall =>
          cases h
          obtain ⟨hfield, first, rest, rfl, hothers⟩ := eq_of_only? honly
          obtain ⟨rfl, rfl⟩ := eq_of_isField hfield
          have hnamed : ∀ item ∈ first ++ rest, namedIf key item = true := by
            intro item hitem
            refine List.all_eq_true.mp hall item ?_
            rcases List.mem_append.mp hitem with hmem | hmem
            · exact List.mem_append_left _ hmem
            · exact List.mem_append_right _ (List.mem_cons_of_mem _ hmem)
          refine ⟨first, rest, rfl, fun item hitem => key_ne_of_namedIf (hnamed item hitem),
            fun item hitem hkey => ?_⟩
          obtain ⟨other, items, rfl⟩ := eq_block_of_namedIf (hnamed item hitem) hkey
          refine ⟨other, items, rfl, ?_⟩
          rintro rfl
          have hother := hothers _ hitem
          simp [isField] at hother
      · cases h
  · cases h

/-- Where the description is found, there is a spot. -/
theorem exists_spot {entry : Entry} {items : List Item} {old : Option String}
    (hkind : entry.kind ∈ fieldKinds)
    (h : soleDescription? entry.kind entry.name items = some old) :
    ∃ spot : Spot, items = spot.items entry ∧ spot.Sole entry ∧ spot.DescribedBy old := by
  simp only [soleDescription?, bind, Option.bind_eq_some_iff] at h
  obtain ⟨⟨title, inner⟩, hview, own, hfield, htext⟩ := h
  obtain ⟨before, after, rfl, hothers⟩ := eq_of_soleView? hview
  obtain ⟨first, rest, hinner, hplural, hnamed⟩ := eq_of_soleField? hfield
  obtain rfl : inner = _ := hinner
  exact ⟨⟨before, title, first, own, rest, after⟩, rfl, ⟨hkind, hothers, hplural, hnamed⟩,
    eq_of_soleText? htext⟩

theorem filter_oldItem (old : Option String) :
    ((oldItem old).filter fun item => item.key = "description") = oldItem old := by
  cases old <;> simp [oldItem, Item.key]

/-- A description is the only one of a field if there is none around it. -/
theorem filter_described_iff {above below : List Item} {old : Option String} :
    ((above ++ (oldItem old ++ below)).filter fun item => item.key = "description") = oldItem old ↔
      NoDescription (above ++ below) := by
  have hnone : ∀ items : List Item,
      (items.filter fun item => item.key = "description") = [] ↔ NoDescription items := by
    intro items
    rw [List.filter_eq_nil_iff]
    simp [NoDescription]
  rw [List.filter_append, List.filter_append, filter_oldItem, ← hnone, List.filter_append,
    List.append_eq_nil_iff]
  constructor
  · intro hall
    have hlength := congrArg List.length hall
    rw [List.length_append, List.length_append] at hlength
    exact ⟨List.eq_nil_of_length_eq_zero (by omega), List.eq_nil_of_length_eq_zero (by omega)⟩
  · rintro ⟨habove, hbelow⟩
    rw [habove, hbelow, List.nil_append, List.append_nil]

namespace Spot

variable {spot : Spot} {entry : Entry} {old : Option String}

/-- The description that is found for the field. -/
theorem Sole.findDescription_eq (hsole : spot.Sole entry) (hdescribed : spot.DescribedBy old)
    {doc : Document} (hview : doc.kind = .view)
    (hbody : Item.fields (spot.items entry) = .ok doc.body) :
    findDescription doc (.text entry.kind) (.text entry.name) =
      .ok (.text (old.getD ""), old.isSome) := by
  obtain ⟨fields, hfields, hfind⟩ := Update.findDescription_eq hview hbody hsole.view hsole.kind
    hsole.plural fun item hitem => hsole.named item (List.mem_append_left _ hitem)
  rw [hfind, answer]
  rw [DescribedBy] at hdescribed
  cases old with
  | none =>
      have hnone : NoDescription spot.own := fun item hitem hkey =>
        List.filter_eq_nil_iff.mp hdescribed item hitem (decide_eq_true hkey)
      rw [get?_no_description hnone hfields]
      rfl
  | some text =>
      obtain ⟨above, below, hown, _, _, hbelow⟩ := List.filter_eq_cons_iff.mp hdescribed
      have hnone : NoDescription below := fun item hitem hkey =>
        List.filter_eq_nil_iff.mp hbelow item hitem (decide_eq_true hkey)
      rw [hown] at hfields
      rw [get?_description hnone hfields]
      rfl

/-- A new description in the place of the old one is a new version of the field. -/
theorem Sole.versions (hsole : spot.Sole entry) {above below : List Item}
    (hown : spot.own = above ++ (oldItem old ++ below)) (hplain : NoDescription (above ++ below))
    (new : String) :
    List.Forall₂ (Version (about [entry])) (spot.inner entry)
      ((spot.withOwn (above ++ .pair "description" new :: below)).inner entry) := by
  have hchosen : about [entry] entry.kind entry.name = true := by simp [about]
  have hrefl : ∀ items : List Item, List.Forall₂ (Version (about [entry])) items items :=
    fun items => List.forall₂_same.mpr fun item _ => Version.refl _ item
  rw [inner, hown]
  exact List.rel_append (hrefl _) (.cons
    ⟨alike_field hsole.kind hchosen (sameBut_described hplain old new),
      keyed_described hplain old new⟩ (hrefl _))

/-- A new description in the place of the old one makes no key of the document stand twice. -/
theorem allKeyed_described {first rest : List Item} (hplain : NoDescription (first ++ rest))
    (new : String)
    (h : Item.allKeyed ((spot.withOwn (first ++ (oldItem old ++ rest))).items entry) = true) :
    Item.allKeyed ((spot.withOwn (first ++ .pair "description" new :: rest)).items entry) =
      true := by
  have hfield := @keyed_described entry.kind (some entry.name) first rest hplain old new
  simp only [withOwn, items, inner, allKeyed_append, Item.allKeyed, Bool.and_eq_true] at h ⊢
  obtain ⟨hbefore, hview, hafter⟩ := h
  refine ⟨hbefore, ?_, hafter⟩
  rw [Item.keyed, Bool.and_eq_true, allKeyed_append, Item.allKeyed] at hview ⊢
  simp only [Bool.and_eq_true, List.map_append, List.map_cons, Item.key] at hview ⊢
  obtain ⟨hkeys, hfirst, hown, hrest⟩ := hview
  exact ⟨hkeys, hfirst, hfield hown, hrest⟩

/-- The items around a place in a field of a view. -/
theorem exists_of_context {context : List Item → List Item} {title : List Char}
    {before first : List Item}
    (h : Context [⟨entry.kind, entry.name.toList, first⟩, ⟨"view", title, before⟩] context) :
    ∃ spot : Spot, spot.before = before ∧ spot.title = String.ofList title ∧ spot.first = first ∧
      ∀ own, context own = (spot.withOwn own).items entry := by
  obtain _ | ⟨_, _, _, rest, hview⟩ := h
  obtain _ | ⟨_, _, _, after, htop⟩ := hview
  cases htop
  refine ⟨⟨before, String.ofList title, first, [], rest, after⟩, rfl, rfl, rfl, fun own => ?_⟩
  rw [String.ofList_toList]
  rfl

/-- A line that is read as a description, at a place inside a field and instead of the lines of the
old one, is an item of the field, and the rest of the document is read as before. -/
theorem parse_line {above lines below : List Char} {kinds : List Kind} {title : List Char}
    {before front first items : List Item} (hlexes : Lexes above kinds [])
    (hends : EndsLine above)
    (hopens : Opens kinds [⟨entry.kind, entry.name.toList, front⟩, ⟨"view", title, before⟩] first)
    (hlines : Whole lines (oldItem old)) (hbelow : startsBlock false below = false)
    (hparse : parse (above ++ (lines ++ below)) = .ok items) :
    ∃ (spot : Spot) (rest : List Item), spot.before = before ∧ spot.title = String.ofList title ∧
      spot.first = front ∧ items = (spot.withOwn (first ++ (oldItem old ++ rest))).items entry ∧
      ∀ {line : List Char} {new : String}, Whole line [.pair "description" new] →
        NoDescription (first ++ rest) → parse (above ++ (line ++ below)) =
          .ok ((spot.withOwn (first ++ .pair "description" new :: rest)).items entry) := by
  have hkeyed : Item.allKeyed (oldItem old) = true := by cases old <;> rfl
  obtain ⟨context, rest, hcontext, rfl, hnew⟩ := parse_replaced hlexes hends hopens hlines hkeyed
    hbelow hparse
  obtain ⟨spot, hbefore, htitle, hfront, hspot⟩ := exists_of_context hcontext
  refine ⟨spot, rest, hbefore, htitle, hfront, hspot _, ?_⟩
  intro line new hline hplain
  have hread := hnew hline
  rw [hspot] at hread hparse
  exact hread (allKeyed_described hplain new (allKeyed_of_parse hparse))

/-- In a document with one such field, the line is an item of that. -/
theorem Sole.parse_line (hsole : spot.Sole entry) (hdescribed : spot.DescribedBy old)
    {above lines line below : List Char} {new : String}
    (hinside : Inside entry.kind entry.name above) (hlines : Whole lines (oldItem old))
    (hline : Whole line [.pair "description" new]) (hbelow : startsBlock false below = false)
    (hparse : parse (above ++ (lines ++ below)) = .ok (spot.items entry)) :
    ∃ first rest, spot.own = first ++ (oldItem old ++ rest) ∧ NoDescription (first ++ rest) ∧
      parse (above ++ (line ++ below)) =
        .ok ((spot.withOwn (first ++ .pair "description" new :: rest)).items entry) := by
  obtain ⟨kinds, _, _, _, first, hlexes, hopens⟩ := hinside.opens
  obtain ⟨spot', rest, _, _, _, hitems, hnew⟩ := Spot.parse_line hlexes hinside.line hopens hlines
    hbelow hparse
  obtain rfl := hsole.eq hitems
  have hplain : NoDescription (first ++ rest) := filter_described_iff.mp hdescribed
  exact ⟨first, rest, rfl, hplain, hnew hline hplain⟩

/-- **A DESCRIPTION AT A PLACE INSIDE THE FIELD**, on a line of its own and instead of the lines of
the old one, is a description of the field, and the rest of the document is read as before. -/
theorem Sole.parse_described (hsole : spot.Sole entry) (hdescribed : spot.DescribedBy old)
    {above lines below : List Char} (hinside : Inside entry.kind entry.name above)
    (hlines : Whole lines (oldItem old)) (hbelow : startsBlock false below = false)
    (hquotable : Quotable entry.definition)
    (hparse : parse (above ++ (lines ++ below)) = .ok (spot.items entry)) :
    ∃ own, List.Forall₂ (Version (about [entry])) (spot.inner entry)
        ((spot.withOwn own).inner entry) ∧
      (spot.withOwn own).DescribedBy (some entry.definition) ∧
      parse (above ++ (descriptionLine entry.definition.toList ++ below)) =
        .ok ((spot.withOwn own).items entry) := by
  obtain ⟨first, rest, hown, hplain, hnew⟩ := hsole.parse_line hdescribed hinside hlines
    (whole_descriptionLine hquotable) hbelow hparse
  refine ⟨_, hsole.versions hown hplain entry.definition, ?_, hnew⟩
  exact (@filter_described_iff first rest (some entry.definition)).mpr hplain

end Spot

/-! ## Where an edit is made -/

/-- The edit for an entry is made at a place inside its field: one line is the header of the field,
the lines down to the place leave the field open, and at the place stand the lines of the old
description, if there is one, and as many as its text has. -/
inductive Placed (entry : Entry) : Option String → List Line → Prop
  | added {before after : List Line} {header : Line}
      (found : isHeader entry.kind.toList entry.name.toList header = true)
      (once : ∀ line ∈ before ++ after, isHeader entry.kind.toList entry.name.toList line = false)
      (above : Inside entry.kind entry.name (before ++ [header]).flatten)
      (below : startsBlock false after.flatten = false) :
      Placed entry none (before ++ header :: after)
  | replaced {before between after : List Line} {header last : Line} (old : Described)
      (found : isHeader entry.kind.toList entry.name.toList header = true)
      (once : ∀ line ∈ before ++ after, isHeader entry.kind.toList entry.name.toList line = false)
      (sought : ∀ line ∈ between, isDescription line = false)
      (tight : old.Tight)
      (above : Inside entry.kind entry.name (before ++ header :: between).flatten)
      (below : startsBlock false (last :: after).flatten = false) :
      Placed entry (some old.value)
        (before ++ header :: (between ++ (Text.lines old.text ++ last :: after)))

/-- The edit for an entry finds no line to be made at: no header of its field, or no description
below it that could be replaced. -/
def Unmet (entry : Entry) : Option String → List Line → Prop
  | none, lines => ∀ line ∈ lines, isHeader entry.kind.toList entry.name.toList line = false
  | some _, lines => meetsDescription entry.kind.toList entry.name.toList lines = false

/-- The edit that an entry asks for, where its field has this description or none. -/
def edit (entry : Entry) (old : Option String) (lines : List Line) : List Line :=
  Edit.modify (Text.splitChar '\n' (old.getD "").toList).length entry.kind.toList
    entry.name.toList entry.definition.toList old.isSome lines

section Edit

variable {entry : Entry} {old : Option String} {lines : List Line}

/-- An edit that finds no line leaves all lines as they are. -/
theorem Unmet.edit_eq (h : Unmet entry old lines) : edit entry old lines = lines := by
  rw [edit, Edit.modify]
  cases old with
  | none => exact add_of_no_header _ h
  | some text => exact substitute_of_unmet _ _ h

/-- The text around the place, and the description in it after the edit. -/
theorem Placed.edit_eq (h : Placed entry old lines) :
    ∃ above text below, lines.flatten = above ++ (text ++ below) ∧
      Inside entry.kind entry.name above ∧ Whole text (oldItem old) ∧
      startsBlock false below = false ∧ (edit entry old lines).flatten =
        above ++ (descriptionLine entry.definition.toList ++ below) := by
  cases h with
  | @added before after header found once above below =>
      refine ⟨_, [], _, ?_, above, Whole.nil, below, ?_⟩
      · simp
      · rw [edit, Edit.modify, Option.isSome_none, if_neg Bool.false_ne_true,
          add_split _ found (fun line hline => once line (List.mem_append_left _ hline))
            (fun line hline => once line (List.mem_append_right _ hline))]
        simp
  | @replaced before between after header last old found once sought tight above below =>
      have hwhole : Whole old.text (oldItem (some old.value)) :=
        whole_of_itemsOf? (.inr old.whole) old.read
      refine ⟨_, old.text, _, ?_, above, hwhole, below, ?_⟩
      · simp [Text.flatten_lines]
      · rw [edit, Edit.modify, Option.isSome_some, if_pos rfl, Option.getD_some,
          Described.substitute_eq tight found
            (fun line hline => once line (List.mem_append_left _ hline)) sought
            (fun line hline => once line (List.mem_append_right _ hline))]
        simp

/-- The lines after the edit that an entry asks for: a description that is the definition already
is left alone. -/
def edited (entry : Entry) (old : Option String) (lines : List Line) : List Line :=
  if old.getD "" = entry.definition then lines else edit entry old lines

/-- A row that gives the entry asks for its edit. -/
theorem Spot.Sole.describe_eq {spot : Spot} (hsole : spot.Sole entry)
    (hdescribed : spot.DescribedBy old) {doc : Document} (hview : doc.kind = .view)
    (hbody : Item.fields (spot.items entry) = .ok doc.body) {row : Row} (hrow : Gives row entry)
    (lines : List Line) : describe doc lines row = .ok (edited entry old lines) := by
  have hfind := hsole.findDescription_eq hdescribed hview hbody
  rw [describe, hrow.kind, hrow.name, hrow.definition, edited, edit]
  simp only [bind, Except.bind, hfind, lineCount, isCurrent, text_beq, beq_iff_eq, pure,
    Except.pure, Value.display]
  split <;> rfl

/-- **THE EDIT STAYS WITHIN THE FIELD**: after it the document is read with a new version of the
field and is otherwise the same, if there is nothing to do or the edit is made inside the field. -/
theorem Spot.Sole.parse_edited {spot : Spot} (hsole : spot.Sole entry)
    (hdescribed : spot.DescribedBy old) (hquotable : Quotable entry.definition)
    (hparse : parse lines.flatten = .ok (spot.items entry)) (hreturn : '\r' ∉ lines.flatten)
    (hplace : old.getD "" = entry.definition ∨ Unmet entry old lines ∨ Placed entry old lines) :
    ∃ own, List.Forall₂ (Version (about [entry])) (spot.inner entry)
        ((spot.withOwn own).inner entry) ∧
      parse (edited entry old lines).flatten = .ok ((spot.withOwn own).items entry) ∧
      '\r' ∉ (edited entry old lines).flatten ∧
      (entry.definition ≠ "" → Placed entry old lines →
        (spot.withOwn own).DescribedBy (some entry.definition)) := by
  have hrefl : List.Forall₂ (Version (about [entry])) (spot.inner entry)
      ((spot.withOwn spot.own).inner entry) :=
    List.forall₂_same.mpr fun item _ => Version.refl _ item
  -- A description that is the definition already, an edit inside the field, or one that finds no
  -- line.
  by_cases hcurrent : old.getD "" = entry.definition
  · rw [edited, if_pos hcurrent]
    refine ⟨spot.own, hrefl, hparse, hreturn, fun hnonempty _ => ?_⟩
    cases old with
    | none => exact absurd hcurrent.symm hnonempty
    | some text =>
        have htext : text = entry.definition := hcurrent
        rw [← htext]
        exact hdescribed
  rw [edited, if_neg hcurrent]
  by_cases hplaced : Placed entry old lines
  · obtain ⟨above, text, below, hlines, hinside, htext, hbelow, hedit⟩ := hplaced.edit_eq
    rw [hlines] at hparse hreturn
    obtain ⟨own, hversions, hnew, hparse'⟩ :=
      hsole.parse_described hdescribed hinside htext hbelow hquotable hparse
    rw [hedit]
    refine ⟨own, hversions, hparse', ?_, fun _ _ => hnew⟩
    have hline := return_not_mem_descriptionLine hquotable.newline
    simp only [List.mem_append, not_or] at hreturn ⊢
    exact ⟨hreturn.1, hline, hreturn.2.2⟩
  · have hunmet : Unmet entry old lines :=
      (hplace.resolve_left hcurrent).resolve_right hplaced
    rw [hunmet.edit_eq]
    exact ⟨spot.own, hrefl, hparse, hreturn, fun _ h => absurd h hplaced⟩

end Edit

/-! ## The update -/

/-- An update whose lines are a document writes them, and the document is read from them. -/
theorem run_of_updated {settings : Value} {store : Store} {database : Option Definitions.Database}
    {path out : String} {definitions : Definitions.Yield} {lines : List Line} {body : Fields}
    {route : Route}
    (hdefinitions : Definitions.ofSettings settings store database = .ok definitions)
    (hupdated : updated settings definitions store (.text path) = .ok lines)
    (hreturn : '\r' ∉ lines.flatten) (hbody : Lookml.load lines.flatten = .ok body)
    (htarget : (store.target out).file? = some route)
    (hout : DocumentKind.ofFileName? (Store.baseName out).toList = some .view) :
    ∃ after written, run settings store database (.text path) (.text out) = .ok after ∧
      Document.load after out = .ok written ∧ written.kind = .view ∧ written.body = body := by
  obtain ⟨hwrite, hread⟩ := Store.read_write htarget (join lines)
  obtain ⟨written, hwritten, hkind, hwrittenBody⟩ := document_of_load hread hout (by
    rw [join, String.toList_ofList, Text.unifyNewlines_of_not_mem hreturn]
    exact hbody)
  refine ⟨_, written, ?_, hwritten, hkind, hwrittenBody⟩
  rw [run, hdefinitions]
  simp only [bind, Except.bind, hupdated, Value.asTarget]
  exact hwrite

/-- **CONTAINMENT**: an update from one row of definitions writes a document that differs from the
one that was read in the description of the field of the row at most, whatever the layout, if there
is nothing to do or the edit is made inside the field.  In the last case the definition becomes the
description. -/
theorem run_contained {settings : Value} {store : Store} {database : Option Definitions.Database}
    {path out source file : String} {definitions : Definitions.Yield} {row : Row} {doc : Document}
    {items : List Item} {entry : Entry} {old : Option String} {route : Route}
    (hsource : store.read path = .ok source)
    (hparse : parse (Text.unifyNewlines source.toList) = .ok items)
    (hdoc : Document.load store path = .ok doc) (hview : doc.kind = .view)
    (hdefinitions : Definitions.ofSettings settings store database = .ok definitions)
    (hfile : nameInTable settings path = .ok file) (hrows : rowsIn definitions file = .ok [row])
    (hrow : Gives row entry) (hkind : entry.kind ∈ fieldKinds)
    (hold : soleDescription? entry.kind entry.name items = some old)
    (hquotable : Quotable entry.definition)
    (hplace : old.getD "" = entry.definition ∨
      Unmet entry old (Text.lines (Text.unifyNewlines source.toList)) ∨
      Placed entry old (Text.lines (Text.unifyNewlines source.toList)))
    (htarget : (store.target out).file? = some route)
    (hout : DocumentKind.ofFileName? (Store.baseName out).toList = some .view) :
    ∃ after written, run settings store database (.text path) (.text out) = .ok after ∧
      Document.load after out = .ok written ∧
      bareBody (about [entry]) doc.body = bareBody (about [entry]) written.body ∧
      (entry.definition ≠ "" → Placed entry old (Text.lines (Text.unifyNewlines source.toList)) →
        findDescription written (.text entry.kind) (.text entry.name) =
          .ok (.text entry.definition, true)) := by
  obtain ⟨spot, rfl, hsole, hdescribed⟩ := exists_spot hkind hold
  have hbody : Item.fields (spot.items entry) = .ok doc.body := by
    have hload := load_of_document hsource hdoc
    rwa [Lookml.load, hparse] at hload
  have hflatten := Text.flatten_lines (Text.unifyNewlines source.toList)
  obtain ⟨own, hversions, hparse', hreturn, hnew⟩ := hsole.parse_edited hdescribed hquotable
    (by rw [hflatten]; exact hparse) (by rw [hflatten]; exact Text.not_mem_unifyNewlines _) hplace
  obtain ⟨body, hbody', hbare⟩ :=
    bareBody_eq (hversions.imp fun _ _ hversion => hversion.alike) hbody
  have hupdated : updated settings definitions store (.text path) =
      .ok (edited entry old (Text.lines (Text.unifyNewlines source.toList))) := by
    rw [updated, Value.asPath]
    simp only [bind, Except.bind, readLines_eq hsource, hdoc, hfile, hrows]
    rw [List.foldlM_cons, hsole.describe_eq hdescribed hview hbody hrow]
    rfl
  obtain ⟨after, written, hrun, hwritten, hkind, hwrittenBody⟩ :=
    run_of_updated hdefinitions hupdated hreturn (by rw [Lookml.load, hparse']; exact hbody')
      htarget hout
  refine ⟨after, written, hrun, hwritten, by rw [hwrittenBody]; exact hbare, ?_⟩
  intro hnonempty hplaced
  exact (hsole.withOwn own).findDescription_eq (hnew hnonempty hplaced) hkind
    (by rw [hwrittenBody]; exact hbody')

/-! ## Layouts -/

namespace Cramped

/-- The first line of a view. -/
def above : List Line := ["view: v \x7b # one\n".toList]

/-- The header of a field, with a parameter behind the brace. -/
def header : Line := "  dimension: a \x7b type: string\n".toList

/-- The description of the field, with a comment behind it. -/
def old : Described :=
  ⟨"    description: \"old\n words\" # note\n".toList, "old\n words", by decide, by cbv, by decide⟩

/-- The last line of the field, with its brace behind a parameter. -/
def last : Line := "    sql: description ;; \x7d\n".toList

/-- Another field, on one line with the brace of the view. -/
def below : List Line := ["  measure: n \x7b type: count \x7d \x7d\n".toList]

/-- The lines of the view. -/
def lines : List Line := above ++ header :: ([] ++ (Text.lines old.text ++ last :: below))

/-- A definition of the field. -/
def entry : Entry := ⟨"dimension", "a", "new"⟩

theorem placed : Placed entry (some old.value) lines :=
  .replaced old (by decide +kernel) (by decide +kernel) (fun _ h => nomatch h) (by
    rw [Described.Tight]
    decide +kernel) (by decide +kernel) (by decide +kernel)

end Cramped

/-- The update of the view. -/
theorem cramped_contained :
    ∃ doc after written, Document.load (storeOf "v.view.lkml" Cramped.lines.flatten)
        "v.view.lkml" = .ok doc ∧
      run databaseSettings (storeOf "v.view.lkml" Cramped.lines.flatten)
        (some (databaseOf "v.view.lkml" [Cramped.entry])) (.text "v.view.lkml")
        (.text "out.view.lkml") = .ok after ∧
      Document.load after "out.view.lkml" = .ok written ∧
      bareBody (about [Cramped.entry]) doc.body = bareBody (about [Cramped.entry]) written.body ∧
      findDescription written (.text "dimension") (.text "a") = .ok (.text "new", true) := by
  have hreturn : '\r' ∉ Cramped.lines.flatten := by decide +kernel
  have htext : Text.unifyNewlines (String.ofList Cramped.lines.flatten).toList =
      Cramped.lines.flatten := by
    rw [String.toList_ofList, Text.unifyNewlines_of_not_mem hreturn]
  have hlines : Text.lines Cramped.lines.flatten = Cramped.lines := by decide +kernel
  have hkind : ((Document.load (storeOf "v.view.lkml" Cramped.lines.flatten)
      "v.view.lkml").toOption.map Document.kind) = some .view := by decide +kernel
  have hfound : ((parse Cramped.lines.flatten).toOption.bind (soleDescription? "dimension" "a")) =
      some (some Cramped.old.value) := by decide +kernel
  cases hdoc : Document.load (storeOf "v.view.lkml" Cramped.lines.flatten) "v.view.lkml" with
  | error fault => rw [hdoc] at hkind; cases hkind
  | ok doc =>
      rw [hdoc] at hkind
      have hview : doc.kind = .view := Option.some.inj hkind
      cases hparse : parse Cramped.lines.flatten with
      | error fault => rw [hparse] at hfound; cases hfound
      | ok items =>
          rw [hparse] at hfound
          have hplaced := Cramped.placed
          rw [← hlines, ← htext] at hplaced
          obtain ⟨after, written, hrun, hwritten, hbare, hnew⟩ := run_contained rfl
            (by rw [htext]; exact hparse) hdoc hview
            (ofSettings_database rfl "v.view.lkml" [Cramped.entry]) rfl rfl ⟨rfl, rfl, rfl⟩
            (by decide) hfound (by decide) (.inr (.inr hplaced))
            (by rfl : (Store.target _ "out.view.lkml").file? = some ["out.view.lkml"]) (by decide)
          exact ⟨doc, after, written, rfl, hrun, hwritten, hbare, hnew (by decide) hplaced⟩

/-- The update of a file with this text from one entry writes a document that differs from the one
that was read in the description of its field at most. -/
def Contained (text : List Char) (entry : Entry) : Prop :=
  ∃ doc after written, Document.load (storeOf "v.view.lkml" text) "v.view.lkml" = .ok doc ∧
    run databaseSettings (storeOf "v.view.lkml" text) (some (databaseOf "v.view.lkml" [entry]))
      (.text "v.view.lkml") (.text "out.view.lkml") = .ok after ∧
    Document.load after "out.view.lkml" = .ok written ∧
    bareBody (about [entry]) doc.body = bareBody (about [entry]) written.body

/-- What a document says apart from the description of the field. -/
def shown (entry : Entry) (doc : Document) : String :=
  (Value.record (bareBody (about [entry]) doc.body)).display

theorem not_contained_of_shown {text : List Char} {entry : Entry}
    (h : (((run databaseSettings (storeOf "v.view.lkml" text)
        (some (databaseOf "v.view.lkml" [entry])) (.text "v.view.lkml")
        (.text "out.view.lkml")).toOption.bind fun after =>
          (Document.load after "out.view.lkml").toOption).map (shown entry)) ≠
      ((Document.load (storeOf "v.view.lkml" text) "v.view.lkml").toOption.map (shown entry))) :
    ¬ Contained text entry := by
  rintro ⟨doc, after, written, hdoc, hrun, hwritten, hbare⟩
  refine h ?_
  rw [hrun, hdoc]
  show ((Document.load after "out.view.lkml").toOption.map (shown entry)) = some (shown entry doc)
  rw [hwritten]
  show some (shown entry written) = some (shown entry doc)
  rw [shown, shown, hbare]

namespace Cramped

/-- A field on one line. -/
def oneLine : List Char :=
  "view: v \x7b\n  dimension: a \x7b type: string \x7d\n\x7d\n".toList

/-- A field with its description on the line of its header, above another with a description. -/
def headLine : List Char :=
  ("view: v \x7b\n dimension: a \x7b description: \"old\"\n \x7d\n" ++
    " dimension: b \x7b\n description: \"kept\"\n \x7d\n\x7d\n").toList

end Cramped

/-- A field that is closed on the line of its header leaves its description to the view, and one
with its description on that line leaves it to the field below. -/
theorem oneLine_not_contained :
    ((parse Cramped.oneLine).toOption.bind (soleDescription? "dimension" "a")) = some none ∧
      ¬ Contained Cramped.oneLine Cramped.entry ∧
      ((parse Cramped.headLine).toOption.bind (soleDescription? "dimension" "a")) =
        some (some "old") ∧
      ¬ Contained Cramped.headLine Cramped.entry :=
  ⟨by decide +kernel, not_contained_of_shown (by decide +kernel), by decide +kernel,
    not_contained_of_shown (by decide +kernel)⟩

end LookmlProject.Update
