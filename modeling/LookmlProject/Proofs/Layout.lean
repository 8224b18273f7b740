import LookmlProject.Proofs.Descriptions
import LookmlProject.Proofs.Lines
import Mathlib.Data.List.Nodup

/-!
# Views laid out line by line

A file with one view of which each item starts its own line, as data: `Layout` has the lines around
the view and the parts of the view, and each field among them (`FieldLines`) its header, its
description, what stands around that, and its closing brace.  New descriptions are given by kind and
name; `Layout.lines` are the lines with them and `Layout.items` the items.

  * The lines with new descriptions are read as the items with new descriptions (`Layout.parse_eq`).
  * The entries of these differ from those before in the new descriptions only
    (`Layout.load_eq`).
  * The description that is looked up for a field is the new one, and the old one if there is no new
    one (`Layout.findDescription_eq`).
-/

namespace LookmlProject.Update

open Lookml Edit Value

/-! ## Parts of a view -/

/-- Whole lines and the items that they are read as. -/
structure Chunk where
  text : List Char
  items : List Item
  whole : text = [] ∨ EndsLine text
  read : itemsOf? text = some items

/-- The lines of a chunk. -/
def Chunk.lines (chunk : Chunk) : List Line := Text.lines chunk.text

/-- A description on lines of its own. -/
structure Described where
  text : List Char
  value : String
  whole : EndsLine text
  read : itemsOf? text = some [.pair "description" value]
  starts : (Text.lines text).head?.any isDescription = true

/-- A description has as many lines as its text: the text starts on the line of its key. -/
def Described.Tight (old : Described) : Prop :=
  (Text.lines old.text).length = (Text.splitChar '\n' old.value.toList).length

/-- A field: its header, the lines above its description, that description if it has one, the lines
below it, and the line with its closing brace. -/
structure FieldLines where
  header : Header
  above : Chunk
  old : Option Described
  below : Chunk
  footer : Footer
  kind : header.key ∈ fieldKinds
  opened : header.Formed
  closed : footer.Formed
  plain : NoDescription (above.items ++ below.items)
  sought : old.isSome = true → ∀ line ∈ above.lines, isDescription line = false

/-- A part of a view: a field, or lines with other items. -/
inductive Part where
  | field (lines : FieldLines)
  | other (chunk : Chunk)
      (plain : ∀ item ∈ chunk.items, item.key ∉ fieldKinds ∧ item.key ∉ fieldKinds.map (· ++ "s"))

/-- New descriptions of fields, by kind and name. -/
abbrev NewTexts := String → String → Option String

/-- No new descriptions. -/
def NewTexts.empty : NewTexts := fun _ _ => none

@[simp] theorem NewTexts.empty_eq (kind name : String) : NewTexts.empty kind name = none := rfl

namespace FieldLines

variable (field : FieldLines)

/-- The lines below the description. -/
def rest : List Line := field.below.lines ++ [field.footer.text]

/-- The lines of the old description. -/
def oldLines : List Line :=
  match field.old with
  | none => []
  | some old => Text.lines old.text

/-- The lines below the header.  A new description stands in place of the old one, or right below
the header if there is none. -/
def bodyLines : Option String → List Line
  | none => field.above.lines ++ (field.oldLines ++ field.rest)
  | some new =>
    if field.old.isSome then field.above.lines ++ descriptionLine new.toList :: field.rest
    else descriptionLine new.toList :: (field.above.lines ++ field.rest)

/-- All lines. -/
def lines (new : Option String) : List Line := field.header.text :: field.bodyLines new

/-- The old description as an item. -/
def oldItems : List Item :=
  match field.old with
  | none => []
  | some old => [.pair "description" old.value]

/-- The items of the field. -/
def items : Option String → List Item
  | none => field.above.items ++ (field.oldItems ++ field.below.items)
  | some new =>
    if field.old.isSome then field.above.items ++ .pair "description" new :: field.below.items
    else .pair "description" new :: (field.above.items ++ field.below.items)

/-- The field as an item. -/
def item (new : Option String) : Item :=
  .block field.header.key (some field.header.name) (field.items new)

end FieldLines

/-- The lines of a part. -/
def Part.lines (new : NewTexts) : Part → List Line
  | .field found => found.lines (new found.header.key found.header.name)
  | .other chunk _ => chunk.lines

/-- The items of a part. -/
def Part.items (new : NewTexts) : Part → List Item
  | .field found => [found.item (new found.header.key found.header.name)]
  | .other chunk _ => chunk.items

/-- A file with one view: the lines before it, its header, its parts, and all that follows, which
starts with its closing brace. -/
structure Layout where
  before : Chunk
  header : Header
  parts : List Part
  indent : List Char
  tail : List Char
  after : List Item
  opened : header.Formed
  view : header.key = "view"
  closing : indent.all isSpace = true
  read : parse tail = .ok after
  single : ∀ item ∈ before.items ++ after, item.key ≠ "view" ∧ item.key ≠ "views"

namespace Layout

variable (layout : Layout)

/-- The lines from the closing brace of the view on. -/
def lastLines : List Line := Text.lines (layout.indent ++ '\x7d' :: layout.tail)

/-- The lines of the file with new descriptions. -/
def lines (new : NewTexts) : List Line :=
  layout.before.lines ++ (layout.header.text ::
    (layout.parts.flatMap (Part.lines new) ++ layout.lastLines))

/-- The text of the file. -/
def text : List Char := (layout.lines NewTexts.empty).flatten

/-- The items of the view. -/
def inner (new : NewTexts) : List Item := layout.parts.flatMap (Part.items new)

/-- The items of the file. -/
def items (new : NewTexts) : List Item :=
  layout.before.items ++ .block "view" (some layout.header.name) (layout.inner new) :: layout.after

end Layout

/-! ## How the lines are read -/

theorem Chunk.reads (chunk : Chunk) : Whole chunk.text chunk.items :=
  whole_of_itemsOf? chunk.whole chunk.read

theorem Chunk.flatten_lines (chunk : Chunk) : chunk.lines.flatten = chunk.text :=
  Text.flatten_lines chunk.text

/-- A text that can be a description: no quotes, backslashes or carriage returns. -/
structure Quotable (text : String) : Prop where
  quote : '"' ∉ text.toList
  escape : '\\' ∉ text.toList
  newline : '\r' ∉ text.toList

instance (text : String) : Decidable (Quotable text) :=
  decidable_of_iff ('"' ∉ text.toList ∧ '\\' ∉ text.toList ∧ '\r' ∉ text.toList)
    ⟨fun ⟨h1, h2, h3⟩ => ⟨h1, h2, h3⟩, fun h => ⟨h.quote, h.escape, h.newline⟩⟩

/-- The line of a description is read as that description. -/
theorem whole_descriptionLine {text : String} (h : Quotable text) :
    Whole (descriptionLine text.toList) [.pair "description" text] := by
  have hword : Word "description".toList := by decide
  have hspaces : "    ".toList.all isSpace = true ∧ [' '].all isSpace = true := by decide
  have htrail : isTrail ('\t' :: comment) = true := by decide
  have hline := whole_quoted hspaces.1 hword (by decide) hspaces.2 h.quote h.escape htrail
  rw [String.ofList_toList, String.ofList_toList] at hline
  have hstart : "    description: \"".toList =
      "    ".toList ++ ("description".toList ++ [':', ' ', '"']) := by decide
  have hquote : "\"\t".toList = ['"', '\t'] := by decide
  have htext : descriptionLine text.toList = "    ".toList ++ ("description".toList ++ ':' ::
      ([' '] ++ '"' :: (text.toList ++ '"' :: ('\t' :: comment ++ ['\n'])))) := by
    unfold descriptionLine
    rw [hstart, hquote]
    simp only [List.append_assoc, List.cons_append, List.nil_append]
  rw [htext]
  exact hline

/-- New descriptions that can be written. -/
def NewTexts.Quotable (new : NewTexts) : Prop :=
  ∀ kind name text, new kind name = some text → Update.Quotable text

namespace FieldLines

variable (field : FieldLines)

/-- The lines of the old description are read as it. -/
theorem old_reads : Whole field.oldLines.flatten field.oldItems := by
  rw [oldLines, oldItems]
  cases field.old with
  | none => exact Whole.nil
  | some old =>
      dsimp only
      rw [Text.flatten_lines]
      exact whole_of_itemsOf? (.inr old.whole) old.read

/-- The lines between header and footer are read as the items of the field, with or without a new
description. -/
theorem body_reads {new : Option String} (hnew : ∀ text, new = some text → Quotable text) :
    ∃ body, (field.bodyLines new).flatten = body ++ field.footer.text ∧
      Whole body (field.items new) := by
  -- Without a new description the old one stands where it stood; a new one stands there too, or on
  -- top.
  cases new with
  | none =>
      refine ⟨field.above.text ++ (field.oldLines.flatten ++ field.below.text), ?_,
        field.above.reads.append (field.old_reads.append field.below.reads)⟩
      simp [bodyLines, rest, Chunk.flatten_lines]
  | some text =>
      have hline := whole_descriptionLine (hnew text rfl)
      rw [bodyLines, items]
      split
      · refine ⟨field.above.text ++ (descriptionLine text.toList ++ field.below.text), ?_,
          field.above.reads.append (hline.append field.below.reads)⟩
        simp [rest, Chunk.flatten_lines]
      · refine ⟨descriptionLine text.toList ++ (field.above.text ++ field.below.text), ?_,
          hline.append (field.above.reads.append field.below.reads)⟩
        simp [rest, Chunk.flatten_lines]

/-- The lines of a field are read as the field. -/
theorem reads {new : Option String} (hnew : ∀ text, new = some text → Quotable text) :
    Whole (field.lines new).flatten [field.item new] := by
  obtain ⟨body, hbody, hreads⟩ := field.body_reads hnew
  rw [lines, List.flatten_cons, hbody]
  exact Whole.block field.opened hreads field.closed

end FieldLines

/-- The lines of a part are read as its items. -/
theorem Part.reads (part : Part) {new : NewTexts} (hnew : new.Quotable) :
    Whole (part.lines new).flatten (part.items new) := by
  cases part with
  | field found => exact found.reads (hnew _ _)
  | other chunk _ =>
      rw [Part.lines, Chunk.flatten_lines]
      exact chunk.reads

/-- The lines of parts in a row are read as their items in a row. -/
theorem parts_read (parts : List Part) {new : NewTexts} (hnew : new.Quotable) :
    Whole (parts.flatMap (Part.lines new)).flatten (parts.flatMap (Part.items new)) := by
  induction parts with
  | nil => exact Whole.nil
  | cons part parts ih =>
      rw [List.flatMap_cons, List.flatMap_cons, List.flatten_append]
      exact (part.reads hnew).append ih

/-- What the parser makes of a file with new descriptions. -/
theorem Layout.parse_eq (layout : Layout) {new : NewTexts} (hnew : new.Quotable) :
    (Item.allKeyed (layout.items new) = true →
      parse (layout.lines new).flatten = .ok (layout.items new)) ∧
    (Item.allKeyed (layout.items new) = false →
      ∃ fault, parse (layout.lines new).flatten = .error fault) := by
  have htext : (layout.lines new).flatten = layout.before.text ++ (layout.header.text ++
      ((layout.parts.flatMap (Part.lines new)).flatten ++
        (layout.indent ++ '\x7d' :: layout.tail))) := by
    rw [lines, lastLines, List.flatten_append, List.flatten_cons, List.flatten_append,
      Chunk.flatten_lines, Text.flatten_lines]
  rw [htext, items, inner, ← layout.view]
  exact parse_document layout.before.reads layout.opened (parts_read layout.parts hnew)
    layout.closing layout.read

/-! ## What new descriptions change -/

/-- A new version of an item: it is told apart by chosen descriptions only, and no key stands twice
in it if none did before. -/
structure Version (chosen : String → String → Bool) (item item' : Item) : Prop where
  alike : Alike (changeEach (bareKind chosen)) item item'
  keyed : item.keyed = true → item'.keyed = true

theorem Version.refl (chosen : String → String → Bool) (item : Item) : Version chosen item item :=
  ⟨Alike.refl _ item, id⟩

/-- No key stands twice in a block of some items exactly if none does in a block of any. -/
theorem allKeyed_iff (items : List Item) :
    Item.allKeyed items = true ↔ ∀ item ∈ items, item.keyed = true := by
  induction items with
  | nil => simp [Item.allKeyed]
  | cons item items ih => simp [Item.allKeyed, ih]

/-- No key stands twice exactly if those that are no plurals are distinct. -/
theorem repeatedKey?_eq_none_iff (keys : List String) :
    repeatedKey? keys = none ↔ (keys.filter fun key => !isPlural key).Nodup := by
  induction keys with
  | nil => simp [repeatedKey?]
  | cons key keys ih =>
      rw [repeatedKey?, List.filter_cons]
      cases hplural : isPlural key with
      | true => simpa using ih
      | false =>
          by_cases hmem : key ∈ keys
          · simp [hmem, hplural]
          · simpa [hmem, hplural] using ih

/-- A new description in the place of the old one, or anywhere if there is none, makes no key stand
twice. -/
theorem keyed_described {key : String} {title : Option String} {above below : List Item}
    (hplain : NoDescription (above ++ below)) (old : Option String) (new : String)
    (h : (Item.block key title (above ++ (oldItem old ++ below))).keyed = true) :
    (Item.block key title (above ++ .pair "description" new :: below)).keyed = true := by
  -- The keys of the block itself, and then the blocks in it.
  rw [Item.keyed, Bool.and_eq_true, allKeyed_iff] at h ⊢
  refine ⟨?_, fun item hitem => ?_⟩
  · cases old with
    | some text => simpa [oldItem, Item.key] using h.1
    | none =>
        -- The description is a key that is not among the others.
        rw [Option.isNone_iff_eq_none, repeatedKey?_eq_none_iff] at h ⊢
        have hnew : "description" ∉ (above ++ below).map Item.key := by
          intro hmem
          obtain ⟨item, hitem, hkey⟩ := List.mem_map.mp hmem
          exact hplain item hitem hkey
        have hkeys := h.1
        rw [oldItem, Option.toList_none, List.map_nil, List.nil_append, List.map_append,
          List.filter_append] at hkeys
        rw [List.map_append, List.map_cons, Item.key, List.filter_append,
          List.filter_cons_of_pos (by rw [isPlural_description]; rfl), List.nodup_middle,
          List.nodup_cons, ← List.filter_append, ← List.map_append]
        refine ⟨fun hmem => hnew (List.mem_filter.mp hmem).1, ?_⟩
        rwa [List.map_append, List.filter_append]
  · rcases List.mem_append.mp hitem with hmem | hmem
    · exact h.2 item (List.mem_append_left _ hmem)
    · rcases List.mem_cons.mp hmem with rfl | hmem
      · rfl
      · exact h.2 item (List.mem_append_right _ (List.mem_append_right _ hmem))

namespace FieldLines

variable (field : FieldLines)

/-- A new description changes nothing but the description. -/
theorem sameBut (new : Option String) : SameBut (field.items none) (field.items new) := by
  cases new with
  | none => exact SameBut.refl _
  | some text =>
      have hplain := field.plain
      rw [items, items, oldItems]
      cases field.old with
      | none => exact @sameBut_added [] _ hplain text
      | some old =>
          exact sameBut_replaced (fun item hitem => hplain item (List.mem_append_right _ hitem))
            old.value text

/-- A new description makes no key of the field stand twice. -/
theorem keyed {new : Option String} (h : (field.item none).keyed = true) :
    (field.item new).keyed = true := by
  cases new with
  | none => exact h
  | some text =>
      have hplain := field.plain
      rw [item, items, oldItems] at h
      rw [item, items]
      cases hold : field.old with
      | some old =>
          rw [hold] at h
          exact keyed_described hplain (some old.value) text h
      | none =>
          rw [hold] at h
          exact @keyed_described _ _ [] _ hplain none text h

/-- The description of the field and whether it has one: the new one, or else the old one. -/
def description : Option String → Value × Bool
  | some new => (.text new, true)
  | none =>
    match field.old with
    | some old => (.text old.value, true)
    | none => (.text "", false)

/-- The description among the entries of a field is the new one, or else the old one. -/
theorem answer_eq {new : Option String} {fields : Fields}
    (h : Item.addAll false [] (field.items new) = .ok fields) :
    answer fields = field.description new := by
  have hplain := field.plain
  have hbelow : NoDescription field.below.items :=
    fun item hitem => hplain item (List.mem_append_right _ hitem)
  cases new with
  | none =>
      rw [items, oldItems] at h
      rw [description, answer]
      cases hold : field.old with
      | none =>
          rw [hold] at h
          rw [get?_no_description hplain h]
      | some old =>
          rw [hold] at h
          rw [get?_description hbelow h]
  | some text =>
      rw [items] at h
      rw [description, answer]
      split at h
      · rw [get?_description hbelow h]
      · have hfront : Item.addAll false [] ([] ++ .pair "description" text ::
            (field.above.items ++ field.below.items)) = .ok fields := h
        rw [get?_description hplain hfront]

end FieldLines

/-- A field with a new description is a new version of it, if it is one of the chosen. -/
theorem FieldLines.version (field : FieldLines) {chosen : String → String → Bool}
    {new : Option String}
    (h : new ≠ none → chosen field.header.key field.header.name = true) :
    Version chosen (field.item none) (field.item new) := by
  cases new with
  | none => exact Version.refl chosen _
  | some text =>
      exact ⟨alike_field field.kind (h (by simp)) (field.sameBut _), field.keyed⟩

/-- The fields with new descriptions are among the chosen ones. -/
def NewTexts.Within (new : NewTexts) (chosen : String → String → Bool) : Prop :=
  ∀ kind name, new kind name ≠ none → chosen kind name = true

/-- The items of the view with new descriptions are new versions of its items, one by one. -/
theorem Layout.versions (layout : Layout) {chosen : String → String → Bool} {new : NewTexts}
    (h : new.Within chosen) :
    List.Forall₂ (Version chosen) (layout.inner NewTexts.empty) (layout.inner new) := by
  rw [inner, inner]
  induction layout.parts with
  | nil => exact .nil
  | cons part parts ih =>
      rw [List.flatMap_cons, List.flatMap_cons]
      refine List.rel_append ?_ ih
      cases part with
      | field found => exact .cons (found.version (h _ _)) .nil
      | other chunk _ => exact List.forall₂_same.mpr fun item _ => Version.refl chosen item

/-- New versions have the keys of the old. -/
theorem keys_of_versions {chosen : String → String → Bool} {items items' : List Item}
    (h : List.Forall₂ (Version chosen) items items') :
    items'.map Item.key = items.map Item.key := by
  induction h with
  | nil => rfl
  | cons hitem _ ih => rw [List.map_cons, List.map_cons, ih, hitem.alike.1]

/-- New versions have no key twice if the old have none. -/
theorem allKeyed_of_versions {chosen : String → String → Bool} {items items' : List Item}
    (h : List.Forall₂ (Version chosen) items items') (hkeyed : Item.allKeyed items = true) :
    Item.allKeyed items' = true := by
  induction h with
  | nil => rfl
  | cons hitem _ ih =>
      rw [Item.allKeyed, Bool.and_eq_true] at hkeyed ⊢
      exact ⟨hitem.keyed hkeyed.1, ih hkeyed.2⟩

/-- A document with new versions of the items of its view has no key twice if it had none before. -/
theorem allKeyed_view {chosen : String → String → Bool} {before after inner inner' : List Item}
    {name : String} (hversions : List.Forall₂ (Version chosen) inner inner')
    (hkeyed : Item.allKeyed (before ++ .block "view" (some name) inner :: after) = true) :
    Item.allKeyed (before ++ .block "view" (some name) inner' :: after) = true := by
  rw [allKeyed_iff] at hkeyed ⊢
  intro item hitem
  rw [List.mem_append, List.mem_cons] at hitem
  rcases hitem with hmem | rfl | hmem
  · exact hkeyed item (List.mem_append_left _ hmem)
  · have hview := hkeyed _ (List.mem_append_right _ List.mem_cons_self)
    rw [Item.keyed, Bool.and_eq_true] at hview ⊢
    rw [keys_of_versions hversions]
    exact ⟨hview.1, allKeyed_of_versions hversions hview.2⟩
  · exact hkeyed item (List.mem_append_right _ (List.mem_cons_of_mem _ hmem))

/-- A view with new descriptions has no key twice if it had none before. -/
theorem Layout.allKeyed_items (layout : Layout) {chosen : String → String → Bool} {new : NewTexts}
    (h : new.Within chosen) (hkeyed : Item.allKeyed (layout.items NewTexts.empty) = true) :
    Item.allKeyed (layout.items new) = true :=
  allKeyed_view (layout.versions h) hkeyed

theorem noTexts_quotable : NewTexts.Quotable NewTexts.empty :=
  fun _ _ _ h => nomatch h

/-- A file that is read has the entries of its items. -/
theorem Layout.fields_of_load (layout : Layout) {body : Fields}
    (h : Lookml.load layout.text = .ok body) :
    Item.allKeyed (layout.items NewTexts.empty) = true ∧
      Item.fields (layout.items NewTexts.empty) = .ok body := by
  obtain ⟨hok, herror⟩ := layout.parse_eq noTexts_quotable
  rw [Lookml.load, text] at h
  cases hkeyed : Item.allKeyed (layout.items NewTexts.empty) with
  | false =>
      obtain ⟨fault, hparse⟩ := herror hkeyed
      rw [hparse] at h
      cases h
  | true =>
      rw [hok hkeyed] at h
      exact ⟨rfl, h⟩

/-- **NEW DESCRIPTIONS CHANGE NOTHING ELSE**: the file with them is read if the one without them is,
and without the descriptions of the chosen fields both have the same entries. -/
theorem Layout.load_eq (layout : Layout) {chosen : String → String → Bool} {new : NewTexts}
    (hnew : new.Quotable) (hwithin : new.Within chosen) {body : Fields}
    (h : Lookml.load layout.text = .ok body) :
    ∃ body', Lookml.load (layout.lines new).flatten = .ok body' ∧
      Item.fields (layout.items new) = .ok body' ∧
      bareBody chosen body = bareBody chosen body' := by
  obtain ⟨hkeyed, hfields⟩ := layout.fields_of_load h
  have halike := (layout.versions hwithin).imp fun _ _ hversion => hversion.alike
  obtain ⟨body', hfields', hbare⟩ := bareBody_eq halike hfields
  refine ⟨body', ?_, hfields', hbare⟩
  rw [Lookml.load, (layout.parse_eq hnew).1 (layout.allKeyed_items hwithin hkeyed)]
  exact hfields'

/-- Items of parts are fields with names, or they are no fields. -/
theorem key_of_mem_items {parts : List Part} {new : NewTexts} {item : Item}
    (h : item ∈ parts.flatMap (Part.items new)) :
    (∃ found, .field found ∈ parts ∧
      item = found.item (new found.header.key found.header.name)) ∨
    (item.key ∉ fieldKinds ∧ item.key ∉ fieldKinds.map (· ++ "s")) := by
  obtain ⟨part, hpart, hitem⟩ := List.mem_flatMap.mp h
  cases part with
  | field found => exact .inl ⟨found, hpart, List.mem_singleton.mp hitem⟩
  | other chunk plain => exact .inr (plain item hitem)

/-- The description that is looked up for a field is the new one, or else the old one. -/
theorem Layout.findDescription_eq (layout : Layout) {new : NewTexts} {doc : Document}
    (hview : doc.kind = .view) (hbody : Item.fields (layout.items new) = .ok doc.body)
    {parts parts' : List Part} {field : FieldLines}
    (hparts : layout.parts = parts ++ .field field :: parts')
    (hfirst : ∀ other, .field other ∈ parts → other.header.key = field.header.key →
      other.header.name ≠ field.header.name) :
    findDescription doc (.text field.header.key) (.text field.header.name) =
      .ok (field.description (new field.header.key field.header.name)) := by
  -- Nothing else in the view is gathered where the fields of this kind are.
  have hdistinct : ∀ k ∈ fieldKinds, ∀ k' ∈ fieldKinds, k ≠ k' ++ "s" := by decide
  have hplural : ∀ item ∈ parts.flatMap (Part.items new) ++ parts'.flatMap (Part.items new),
      item.key ≠ field.header.key ++ "s" := by
    intro item hitem
    rw [← List.flatMap_append] at hitem
    rcases key_of_mem_items hitem with ⟨found, _, rfl⟩ | ⟨_, hkey⟩
    · exact hdistinct _ found.kind _ field.kind
    · exact fun heq => hkey (List.mem_map.mpr ⟨_, field.kind, heq.symm⟩)
  have hinner : layout.inner new = parts.flatMap (Part.items new) ++
      field.item (new field.header.key field.header.name) :: parts'.flatMap (Part.items new) := by
    rw [inner, hparts, List.flatMap_append, List.flatMap_cons]
    rfl
  -- The fields of this kind that stand above have other names, so the look-up passes them.
  have hearlier : ∀ item ∈ parts.flatMap (Part.items new), item.key = field.header.key →
      ∃ other inner, item = .block field.header.key (some other) inner ∧
        other ≠ field.header.name := by
    intro item hitem hkey
    rcases key_of_mem_items hitem with ⟨found, hmem, rfl⟩ | ⟨hnone, _⟩
    · exact ⟨_, _, by rw [← hkey]; rfl, hfirst found hmem hkey⟩
    · exact absurd (hkey ▸ field.kind) hnone
  rw [items, hinner] at hbody
  obtain ⟨fields, hfields, hfound⟩ :=
    Update.findDescription_eq hview hbody layout.single field.kind hplural hearlier
  rw [hfound, field.answer_eq hfields]

/-! ## The lines of the file -/

/-- A field is made of whole lines. -/
theorem FieldLines.isLine (field : FieldLines) : ∀ line ∈ field.lines none, Text.IsLine line := by
  have hold : ∀ line ∈ field.oldLines, Text.IsLine line := by
    rw [oldLines]
    cases field.old with
    | none => intro line hline; exact nomatch hline
    | some old => exact Text.isLine_of_mem_lines (.inr old.whole)
  intro line hline
  rw [lines, bodyLines, rest] at hline
  simp only [List.mem_cons, List.mem_append, List.not_mem_nil, or_false] at hline
  rcases hline with rfl | hline | hline | hline | rfl
  · exact field.opened.isLine
  · exact Text.isLine_of_mem_lines field.above.whole line hline
  · exact hold line hline
  · exact Text.isLine_of_mem_lines field.below.whole line hline
  · exact field.closed.isLine

/-- The lines of a layout are the lines of its text. -/
theorem Layout.lines_text (layout : Layout) :
    Text.lines layout.text = layout.lines NewTexts.empty := by
  have hparts : ∀ line ∈ layout.parts.flatMap (Part.lines NewTexts.empty), Text.IsLine line := by
    intro line hline
    obtain ⟨part, _, hline⟩ := List.mem_flatMap.mp hline
    cases part with
    | field found => exact found.isLine line hline
    | other chunk _ => exact Text.isLine_of_mem_lines chunk.whole line hline
  have hlines : ∀ line ∈ layout.before.lines ++ (layout.header.text ::
      layout.parts.flatMap (Part.lines NewTexts.empty)), Text.IsLine line := by
    intro line hline
    rcases List.mem_append.mp hline with hmem | hmem
    · exact Text.isLine_of_mem_lines layout.before.whole line hmem
    · rcases List.mem_cons.mp hmem with rfl | hmem
      · exact layout.opened.isLine
      · exact hparts line hmem
  -- Only the last lines may lack their line feed, and they stand at the end.
  have hsplit : layout.lines NewTexts.empty = (layout.before.lines ++ (layout.header.text ::
      layout.parts.flatMap (Part.lines NewTexts.empty))) ++ layout.lastLines := by
    simp [lines]
  rw [text, hsplit, List.flatten_append, Text.lines_flatten_append hlines, lastLines,
    Text.flatten_lines]

/-- A line with new descriptions is an old line or a new description. -/
theorem FieldLines.mem_lines (field : FieldLines) {new : Option String} {line : Line}
    (h : line ∈ field.lines new) :
    line ∈ field.lines none ∨ ∃ text, new = some text ∧ line = descriptionLine text.toList := by
  cases new with
  | none => exact .inl h
  | some text =>
      rw [lines, bodyLines] at h
      rw [lines, bodyLines]
      split at h
      · simp only [List.mem_cons, List.mem_append] at h ⊢
        rcases h with h | h | h | h
        · exact .inl (.inl h)
        · exact .inl (.inr (.inl h))
        · exact .inr ⟨text, rfl, h⟩
        · exact .inl (.inr (.inr (.inr h)))
      · simp only [List.mem_cons, List.mem_append] at h ⊢
        rcases h with h | h | h | h
        · exact .inl (.inl h)
        · exact .inr ⟨text, rfl, h⟩
        · exact .inl (.inr (.inl h))
        · exact .inl (.inr (.inr (.inr h)))

/-- The same for the lines of parts. -/
theorem mem_part_lines {parts : List Part} {new : NewTexts} {line : Line}
    (h : line ∈ parts.flatMap (Part.lines new)) :
    line ∈ parts.flatMap (Part.lines NewTexts.empty) ∨
      ∃ kind name text, new kind name = some text ∧ line = descriptionLine text.toList := by
  obtain ⟨part, hpart, hline⟩ := List.mem_flatMap.mp h
  cases part with
  | other chunk plain => exact .inl (List.mem_flatMap.mpr ⟨_, hpart, hline⟩)
  | field found =>
      rcases found.mem_lines hline with hold | ⟨text, hnew, rfl⟩
      · exact .inl (List.mem_flatMap.mpr ⟨_, hpart, hold⟩)
      · exact .inr ⟨_, _, text, hnew, rfl⟩

/-- The same for the lines of a file. -/
theorem Layout.mem_lines {layout : Layout} {new : NewTexts} {line : Line}
    (h : line ∈ layout.lines new) :
    line ∈ layout.lines NewTexts.empty ∨
      ∃ kind name text, new kind name = some text ∧ line = descriptionLine text.toList := by
  rw [lines, List.mem_append, List.mem_cons, List.mem_append] at h ⊢
  rcases h with h | h | h | h
  · exact .inl (.inl h)
  · exact .inl (.inr (.inl h))
  · rcases mem_part_lines h with hold | hnew
    · exact .inl (.inr (.inr (.inl hold)))
    · exact .inr hnew
  · exact .inl (.inr (.inr (.inr h)))

/-- The line of a description without carriage returns has none. -/
theorem return_not_mem_descriptionLine {text : String} (h : '\r' ∉ text.toList) :
    '\r' ∉ descriptionLine text.toList := by
  have hstart : '\r' ∉ "    description: \"".toList := by decide
  have hquote : '\r' ∉ "\"\t".toList := by decide
  have hcomment : '\r' ∉ comment := by decide
  unfold descriptionLine
  simp only [List.mem_append, not_or]
  exact ⟨⟨⟨⟨hstart, h⟩, hquote⟩, hcomment⟩, by decide⟩

/-- New descriptions bring no carriage returns. -/
theorem Layout.return_not_mem {layout : Layout} (h : '\r' ∉ layout.text) {new : NewTexts}
    (hnew : new.Quotable) : '\r' ∉ (layout.lines new).flatten := by
  intro hmem
  obtain ⟨line, hline, hreturn⟩ := List.mem_flatten.mp hmem
  rcases mem_lines hline with hold | ⟨kind, name, text, htext, rfl⟩
  · exact h (List.mem_flatten.mpr ⟨line, hold, hreturn⟩)
  · exact return_not_mem_descriptionLine (hnew kind name text htext).newline hreturn

end LookmlProject.Update
