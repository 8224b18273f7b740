import LookmlProject.Proofs.FileNames
import LookmlProject.Proofs.Layout
import LookmlProject.Proofs.Stores
import Mathlib

/-!
# From a table of definitions to a document and back

An update edits lines, by what a parser has read from them; its outcome is judged by the parser
again.  That both agree is shown on laid out views:

  * one row of definitions gives its field a new description in the layout
    (`Layout.describe_eq`), and rows about different fields do so one after the other
    (`Layout.foldlM_describe`);
  * what is written to a file is read from it (`Store.read_write`);
  * so the written document has the definitions as descriptions, and is otherwise the one that was
    read (`run_round_trip`).
-/

namespace LookmlProject.Update

open Lookml Edit Value

/-! ## Rows of definitions -/

/-- The definition of a field. -/
structure Entry where
  kind : String
  name : String
  definition : String

/-- What a row of a table says. -/
structure Gives (row : Row) (entry : Entry) : Prop where
  kind : cell row "type" = .ok (.text entry.kind)
  name : cell row "name" = .ok (.text entry.name)
  definition : cell row "definition" = .ok (.text entry.definition)

/-- Whether a field is the one that an entry is about. -/
def FieldLines.Is (field : FieldLines) (entry : Entry) : Prop :=
  field.header.key = entry.kind ∧ field.header.name = entry.name

/-- Definitions that fit a layout: they are about different fields of it, each of which has one line
that looks like its header, and they can be written as descriptions. -/
structure Layout.Fits (layout : Layout) (entries : List Entry) : Prop where
  distinct : entries.Pairwise fun first second =>
    (first.kind, first.name) ≠ (second.kind, second.name)
  field : ∀ entry ∈ entries, ∃ found, .field found ∈ layout.parts ∧ found.Is entry
  once : ∀ entry ∈ entries, ((Text.lines layout.text).countP
    (isHeader entry.kind.toList entry.name.toList)) = 1
  nonempty : ∀ entry ∈ entries, entry.definition ≠ ""
  quotable : ∀ entry ∈ entries, Quotable entry.definition

/-- The descriptions that definitions replace have as many lines as their texts. -/
def Layout.Tight (layout : Layout) (entries : List Entry) : Prop :=
  ∀ entry ∈ entries, ∀ field, .field field ∈ layout.parts → field.Is entry →
    ∀ old, field.old = some old → old.value ≠ entry.definition → old.Tight

theorem Layout.Fits.tail {layout : Layout} {entry : Entry} {entries : List Entry}
    (h : layout.Fits (entry :: entries)) : layout.Fits entries where
  distinct := (List.pairwise_cons.mp h.distinct).2
  field := fun other hother => h.field other (List.mem_cons_of_mem _ hother)
  once := fun other hother => h.once other (List.mem_cons_of_mem _ hother)
  nonempty := fun other hother => h.nonempty other (List.mem_cons_of_mem _ hother)
  quotable := fun other hother => h.quotable other (List.mem_cons_of_mem _ hother)

/-- A layout around the field that an entry is about, whose header is found nowhere else. -/
structure Layout.Around (layout : Layout) (entry : Entry) (parts : List Part) (field : FieldLines)
    (parts' : List Part) : Prop where
  split : layout.parts = parts ++ .field field :: parts'
  found : field.Is entry
  header : isHeader entry.kind.toList entry.name.toList field.header.text = true
  first : ∀ line ∈ layout.before.lines ++ (layout.header.text ::
    parts.flatMap (Part.lines NewTexts.empty)),
      isHeader entry.kind.toList entry.name.toList line = false
  last : ∀ line ∈ field.bodyLines none ++ (parts'.flatMap (Part.lines NewTexts.empty) ++
    layout.lastLines), isHeader entry.kind.toList entry.name.toList line = false

theorem Entry.fieldKind {field : FieldLines} {entry : Entry} (h : field.Is entry) :
    FieldKind entry.kind.toList :=
  List.mem_map.mpr ⟨_, field.kind, congrArg String.toList h.1⟩

/-- The header of a field is the header of the field by its text, if any line is. -/
theorem FieldLines.isHeader_of_line {field : FieldLines} {entry : Entry} (h : field.Is entry)
    {line : Line} (hline : isHeader entry.kind.toList entry.name.toList line = true) :
    isHeader entry.kind.toList entry.name.toList field.header.text = true := by
  have hkind : FieldKind field.header.key.toList := List.mem_map.mpr ⟨_, field.kind, rfl⟩
  rw [isHeader, Bool.and_eq_true, beq_iff_eq] at hline
  rw [← h.1, field.opened.isHeader_iff hkind, h.2, ← hline.2, Text.strip_strip]

theorem Layout.Fits.around {layout : Layout} {entries : List Entry} (h : layout.Fits entries)
    {entry : Entry} (hentry : entry ∈ entries) :
    ∃ parts field parts', layout.Around entry parts field parts' := by
  obtain ⟨field, hmem, hfield⟩ := h.field entry hentry
  obtain ⟨parts, parts', hsplit⟩ := List.append_of_mem hmem
  have hcount := h.once entry hentry
  obtain ⟨line, _, hline⟩ := List.countP_pos_iff.mp (by rw [hcount]; exact Nat.one_pos)
  have hheader := FieldLines.isHeader_of_line hfield hline
  have hlines : Text.lines layout.text =
      (layout.before.lines ++ (layout.header.text :: parts.flatMap (Part.lines NewTexts.empty))) ++
        field.header.text :: (field.bodyLines none ++
          (parts'.flatMap (Part.lines NewTexts.empty) ++ layout.lastLines)) := by
    rw [layout.lines_text, lines, hsplit, List.flatMap_append, List.flatMap_cons]
    simp [Part.lines, FieldLines.lines]
  rw [hlines, List.countP_append, List.countP_cons, if_pos hheader] at hcount
  have hnone : ∀ ls : List Line, ls.countP (isHeader entry.kind.toList entry.name.toList) = 0 →
      ∀ line ∈ ls, isHeader entry.kind.toList entry.name.toList line = false := by
    intro ls hzero line hline
    exact Bool.eq_false_iff.mpr (List.countP_eq_zero.mp hzero line hline)
  exact ⟨parts, field, parts', hsplit, hfield, hheader, hnone _ (by omega), hnone _ (by omega)⟩

section Around

variable {layout : Layout} {entry : Entry} {parts parts' : List Part} {field : FieldLines}

/-- No other field is the one that the entry is about. -/
theorem Layout.Around.other (h : layout.Around entry parts field parts') {found : FieldLines}
    (hmem : .field found ∈ parts ++ parts') : ¬ found.Is entry := by
  intro his
  have hheader := FieldLines.isHeader_of_line his h.header
  have hline : ∀ ps : List Part, .field found ∈ ps →
      found.header.text ∈ ps.flatMap (Part.lines NewTexts.empty) := by
    intro ps hps
    exact List.mem_flatMap.mpr ⟨_, hps, List.mem_cons_self⟩
  rcases List.mem_append.mp hmem with hmem | hmem
  · rw [h.first _ (by simp [hline parts hmem])] at hheader
    cases hheader
  · rw [h.last _ (by simp [hline parts' hmem])] at hheader
    cases hheader

theorem Layout.Around.no_header (h : layout.Around entry parts field parts') {ps : List Part}
    (hold : ∀ line ∈ ps.flatMap (Part.lines NewTexts.empty),
      isHeader entry.kind.toList entry.name.toList line = false) (new : NewTexts) :
    ∀ line ∈ ps.flatMap (Part.lines new),
      isHeader entry.kind.toList entry.name.toList line = false := by
  intro line hline
  rcases mem_part_lines hline with hmem | ⟨_, _, text, _, rfl⟩
  · exact hold line hmem
  · exact isHeader_descriptionLine (Entry.fieldKind h.found) _ _

/-- Before the field no line is the header, whatever descriptions are new. -/
theorem Layout.Around.first_new (h : layout.Around entry parts field parts') (new : NewTexts) :
    ∀ line ∈ layout.before.lines ++ (layout.header.text :: parts.flatMap (Part.lines new)),
      isHeader entry.kind.toList entry.name.toList line = false := by
  intro line hline
  have hfirst := h.first
  simp only [List.mem_append, List.mem_cons] at hline hfirst
  rcases hline with hline | hline | hline
  · exact hfirst line (.inl hline)
  · exact hfirst line (.inr (.inl hline))
  · exact h.no_header (fun l hl => hfirst l (.inr (.inr hl))) new line hline

/-- Below its header no line is the header either. -/
theorem Layout.Around.last_new (h : layout.Around entry parts field parts') (new : NewTexts) :
    ∀ line ∈ field.bodyLines none ++ (parts'.flatMap (Part.lines new) ++ layout.lastLines),
      isHeader entry.kind.toList entry.name.toList line = false := by
  intro line hline
  have hlast := h.last
  simp only [List.mem_append] at hline hlast
  rcases hline with hline | hline | hline
  · exact hlast line (.inl hline)
  · exact h.no_header (fun l hl => hlast l (.inr (.inl hl))) new line hline
  · exact hlast line (.inr (.inr hline))

/-- The field is the only one that the entry is about. -/
theorem Layout.Around.eq {found : FieldLines} (h : layout.Around entry parts field parts')
    (hmem : .field found ∈ layout.parts) (his : found.Is entry) : found = field := by
  rw [h.split, List.mem_append, List.mem_cons] at hmem
  rcases hmem with hmem | heq | hmem
  · exact absurd his (h.other (List.mem_append_left _ hmem))
  · exact Part.field.inj heq
  · exact absurd his (h.other (List.mem_append_right _ hmem))

/-- The lines of the layout, around those of the field. -/
theorem Layout.Around.lines_eq (h : layout.Around entry parts field parts') (new : NewTexts) :
    layout.lines new =
      (layout.before.lines ++ (layout.header.text :: parts.flatMap (Part.lines new))) ++
        (field.lines (new entry.kind entry.name) ++
          (parts'.flatMap (Part.lines new) ++ layout.lastLines)) := by
  rw [lines, h.split, List.flatMap_append, List.flatMap_cons, Part.lines, h.found.1, h.found.2]
  simp

/-- What is looked up for the field. -/
theorem Layout.Around.findDescription_eq (h : layout.Around entry parts field parts')
    {new : NewTexts} {doc : Document} (hview : doc.kind = .view)
    (hbody : Item.fields (layout.items new) = .ok doc.body) :
    findDescription doc (.text entry.kind) (.text entry.name) =
      .ok (field.description (new entry.kind entry.name)) := by
  have hfirst : ∀ other, .field other ∈ parts → other.header.key = field.header.key →
      other.header.name ≠ field.header.name := by
    intro other hmem hkey hname
    exact h.other (List.mem_append_left _ hmem) ⟨hkey.trans h.found.1, hname.trans h.found.2⟩
  have hfind := layout.findDescription_eq hview hbody h.split hfirst
  rwa [h.found.1, h.found.2] at hfind

end Around

/-! ## One row -/

/-- A description that has as many lines as its text is replaced by another, if a line follows. -/
theorem Described.substitute_eq {old : Described} (htight : old.Tight) {kind name : List Char}
    {before between after : List Line} {header last : Line}
    (hheader : isHeader kind name header = true)
    (hbefore : ∀ line ∈ before, isHeader kind name line = false)
    (hbetween : ∀ line ∈ between, isDescription line = false)
    (hafter : ∀ line ∈ after, isHeader kind name line = false) (text : List Char) :
    substitute (Text.splitChar '\n' old.value.toList).length kind name text
        (before ++ header :: (between ++ (Text.lines old.text ++ last :: after))) =
      before ++ header :: (between ++ descriptionLine text :: last :: after) := by
  have hstarts := old.starts
  rw [← show _ = _ from htight]
  cases hlines : Text.lines old.text with
  | nil => rw [hlines] at hstarts; cases hstarts
  | cons first others =>
      rw [hlines] at hstarts
      exact substitute_split text hheader hbefore hbetween hstarts hafter

section Edit

variable {field : FieldLines} {kind name : List Char} {front back : List Line}

/-- A field without a description gets one right below its header. -/
theorem FieldLines.add_eq (hold : field.old = none)
    (hheader : isHeader kind name field.header.text = true)
    (hfront : ∀ line ∈ front, isHeader kind name line = false)
    (hback : ∀ line ∈ field.bodyLines none ++ back, isHeader kind name line = false)
    (text : String) :
    add kind name text.toList (front ++ (field.lines none ++ back)) =
      front ++ (field.lines (some text) ++ back) := by
  have hadd := add_split text.toList hheader hfront hback
  rw [lines, List.cons_append, hadd, lines, bodyLines, bodyLines, oldLines]
  simp [hold]

/-- A description that has as many lines as its text is replaced by another. -/
theorem FieldLines.substitute_eq {old : Described} (hold : field.old = some old)
    (htight : old.Tight) (hheader : isHeader kind name field.header.text = true)
    (hfront : ∀ line ∈ front, isHeader kind name line = false)
    (hback : ∀ line ∈ field.bodyLines none ++ back, isHeader kind name line = false)
    (text : String) :
    substitute (Text.splitChar '\n' old.value.toList).length kind name text.toList
        (front ++ (field.lines none ++ back)) =
      front ++ (field.lines (some text) ++ back) := by
  have hsought := field.sought (by rw [hold]; rfl)
  -- Behind the old description stands a line, the footer if no other.
  obtain ⟨last, after, hlast⟩ : ∃ last after, field.rest ++ back = last :: after := by
    rw [rest, List.append_assoc]
    cases field.below.lines with
    | nil => exact ⟨_, _, rfl⟩
    | cons line more => exact ⟨_, _, rfl⟩
  have hafter : ∀ line ∈ after, isHeader kind name line = false := by
    intro line hline
    have hmem : line ∈ field.rest ++ back := by rw [hlast]; exact List.mem_cons_of_mem _ hline
    refine hback line ?_
    rw [bodyLines]
    simp only [List.append_assoc, List.mem_append] at hmem ⊢
    exact .inr (.inr hmem)
  have hedit : substitute _ kind name text.toList (front ++ field.header.text ::
      (field.above.lines ++ (Text.lines old.text ++ last :: after))) = _ :=
    Described.substitute_eq htight hheader hfront hsought hafter text.toList
  rw [lines, lines, bodyLines, bodyLines, oldLines]
  simpa [hold, hlast] using hedit

/-- The edit that is asked for by the old description gives the field a new one. -/
theorem FieldLines.modify_eq (htight : ∀ old, field.old = some old → old.Tight)
    (hheader : isHeader kind name field.header.text = true)
    (hfront : ∀ line ∈ front, isHeader kind name line = false)
    (hback : ∀ line ∈ field.bodyLines none ++ back, isHeader kind name line = false)
    (text : String) {count : Nat} (hcount : lineCount (field.description none).1 = .ok count) :
    Edit.modify count kind name text.toList (field.description none).2
        (front ++ (field.lines none ++ back)) =
      front ++ (field.lines (some text) ++ back) := by
  rw [description] at hcount ⊢
  cases hold : field.old with
  | none => exact add_eq hold hheader hfront hback text
  | some old =>
      rw [hold] at hcount
      cases hcount
      exact substitute_eq hold (htight old hold) hheader hfront hback text

end Edit

/-- One more new description. -/
def NewTexts.set (new : NewTexts) (entry : Entry) : NewTexts := fun kind name =>
  if kind = entry.kind ∧ name = entry.name then some entry.definition else new kind name

theorem lines_set {parts : List Part} {entry : Entry}
    (h : ∀ found, .field found ∈ parts → ¬ found.Is entry) (new : NewTexts) :
    parts.flatMap (Part.lines (new.set entry)) = parts.flatMap (Part.lines new) := by
  refine List.flatMap_congr fun part hpart => ?_
  cases part with
  | field found =>
      have hother : ¬ (found.header.key = entry.kind ∧ found.header.name = entry.name) :=
        h found hpart
      rw [Part.lines, Part.lines, NewTexts.set, if_neg hother]
  | other chunk _ => rfl

/-- A new description of the field alone. -/
theorem Layout.Around.lines_set {layout : Layout} {entry : Entry} {parts parts' : List Part}
    {field : FieldLines} (h : layout.Around entry parts field parts') (new : NewTexts) :
    layout.lines (new.set entry) =
      (layout.before.lines ++ (layout.header.text :: parts.flatMap (Part.lines new))) ++
        (field.lines (some entry.definition) ++
          (parts'.flatMap (Part.lines new) ++ layout.lastLines)) := by
  have hnew : new.set entry entry.kind entry.name = some entry.definition := if_pos ⟨rfl, rfl⟩
  rw [h.lines_eq, hnew, Update.lines_set fun found hmem => h.other (List.mem_append_left _ hmem),
    Update.lines_set fun found hmem => h.other (List.mem_append_right _ hmem)]

/-- The field that an entry is about has its definition as description. -/
structure Layout.Settled (layout : Layout) (new : NewTexts) (entry : Entry) : Prop where
  text : ∀ text, new entry.kind entry.name = some text → text = entry.definition
  described : ∀ field, .field field ∈ layout.parts → field.Is entry →
    field.description (new entry.kind entry.name) = (.text entry.definition, true)

/-- A field with a definition as its description has it already. -/
theorem FieldLines.description_of_isCurrent (field : FieldLines) {text : String} (htext : text ≠ "")
    (h : isCurrent (field.description none).1 (.text text) = true) :
    field.description none = (.text text, true) := by
  rw [isCurrent, description] at h
  rw [description]
  cases hold : field.old with
  | none =>
      rw [hold, text_beq, beq_iff_eq] at h
      exact absurd h.symm htext
  | some old =>
      rw [hold, text_beq, beq_iff_eq] at h
      exact congrArg (fun value => (Value.text value, true)) h

/-- **ONE ROW**: its field gets a new description, unless it has the definition already. -/
theorem Layout.describe_eq {layout : Layout} {doc : Document} (hview : doc.kind = .view)
    (hbody : Item.fields (layout.items NewTexts.empty) = .ok doc.body) {entry : Entry}
    {parts parts' : List Part} {field : FieldLines}
    (haround : layout.Around entry parts field parts') (hnonempty : entry.definition ≠ "")
    (htight : ∀ old, field.old = some old → old.value ≠ entry.definition → old.Tight)
    {row : Row} (hrow : Gives row entry) {new : NewTexts}
    (hnew : new entry.kind entry.name = none) :
    ∃ new', describe doc (layout.lines new) row = .ok (layout.lines new') ∧
      layout.Settled new' entry ∧
      ∀ kind name, (kind, name) ≠ (entry.kind, entry.name) → new' kind name = new kind name := by
  have hfind : findDescription doc (.text entry.kind) (.text entry.name) =
      .ok (field.description none) := haround.findDescription_eq hview hbody
  obtain ⟨count, hcount⟩ : ∃ count, lineCount (field.description none).1 = .ok count := by
    rw [FieldLines.description]
    cases field.old <;> exact ⟨_, rfl⟩
  have hdescribe : describe doc (layout.lines new) row =
      if isCurrent (field.description none).1 (.text entry.definition) then .ok (layout.lines new)
      else .ok (Edit.modify count entry.kind.toList entry.name.toList entry.definition.toList
        (field.description none).2 (layout.lines new)) := by
    rw [describe, hrow.kind, hrow.name, hrow.definition]
    simp only [bind, Except.bind, hfind, hcount, pure, Except.pure, Value.display]
  rw [hdescribe]
  split
  · next hcurrent =>
      refine ⟨new, rfl, ⟨fun text htext => ?_, fun found hmem his => ?_⟩, fun _ _ _ => rfl⟩
      · rw [hnew] at htext
        cases htext
      · rw [haround.eq hmem his, hnew]
        exact field.description_of_isCurrent hnonempty hcurrent
  · next hother =>
      -- The definition is another one, so the old description is one that is replaced.
      have hreplaced : ∀ old, field.old = some old → old.Tight := by
        intro old hold
        refine htight old hold fun hvalue => hother ?_
        rw [isCurrent, FieldLines.description, hold, text_beq, hvalue, beq_self_eq_true]
      have hset : new.set entry entry.kind entry.name = some entry.definition := if_pos ⟨rfl, rfl⟩
      refine ⟨new.set entry, ?_, ⟨fun text htext => ?_, fun found _ _ => ?_⟩, ?_⟩
      · rw [haround.lines_set, haround.lines_eq new, hnew]
        exact congrArg Except.ok (FieldLines.modify_eq hreplaced haround.header
          (haround.first_new new) (haround.last_new new) entry.definition hcount)
      · rw [hset] at htext
        exact (Option.some.inj htext).symm
      · rw [hset]
        rfl
      · intro kind name hne
        exact if_neg fun heq => hne (Prod.ext heq.1 heq.2)

/-! ## All rows -/

/-- **ALL ROWS**: each field that they are about has its definition as description, and no other
field has a new description. -/
theorem Layout.foldlM_describe {layout : Layout} {doc : Document} (hview : doc.kind = .view)
    (hbody : Item.fields (layout.items NewTexts.empty) = .ok doc.body) {rows : List Row}
    {entries : List Entry} (hrows : List.Forall₂ Gives rows entries) (hfits : layout.Fits entries)
    (htight : layout.Tight entries) {new : NewTexts}
    (hnew : ∀ entry ∈ entries, new entry.kind entry.name = none) :
    ∃ new', rows.foldlM (describe doc) (layout.lines new) = .ok (layout.lines new') ∧
      (∀ entry ∈ entries, layout.Settled new' entry) ∧
      ∀ kind name, (∀ entry ∈ entries, (kind, name) ≠ (entry.kind, entry.name)) →
        new' kind name = new kind name := by
  induction hrows generalizing new with
  | nil => exact ⟨new, rfl, (fun _ h => nomatch h), fun _ _ _ => rfl⟩
  | cons hrow hrows ih =>
      rename_i row entry rows entries
      obtain ⟨parts, field, parts', haround⟩ := hfits.around List.mem_cons_self
      obtain ⟨new₁, hdescribe, hsettled, hsame⟩ := describe_eq hview hbody haround
        (hfits.nonempty entry List.mem_cons_self)
        (htight entry List.mem_cons_self field (by simp [haround.split]) haround.found) hrow
        (hnew entry List.mem_cons_self)
      have hdistinct := List.pairwise_cons.mp hfits.distinct
      have hnew₁ : ∀ other ∈ entries, new₁ other.kind other.name = none := by
        intro other hother
        rw [hsame _ _ (hdistinct.1 other hother).symm]
        exact hnew other (List.mem_cons_of_mem _ hother)
      obtain ⟨new', hfold, hall, hrest⟩ := ih hfits.tail
        (fun other hother => htight other (List.mem_cons_of_mem _ hother)) hnew₁
      -- Later rows are about other fields, so the field stays as this row has left it.
      have hkept : new' entry.kind entry.name = new₁ entry.kind entry.name :=
        hrest _ _ fun other hother => hdistinct.1 other hother
      refine ⟨new', ?_, ?_, ?_⟩
      · rw [List.foldlM_cons, hdescribe]
        exact hfold
      · intro other hother
        rcases List.mem_cons.mp hother with rfl | hmem
        · exact ⟨by rw [hkept]; exact hsettled.text, by rw [hkept]; exact hsettled.described⟩
        · exact hall other hmem
      · intro kind name hne
        rw [hrest kind name fun other hother => hne other (List.mem_cons_of_mem _ hother),
          hsame kind name (hne entry List.mem_cons_self)]

/-- Whether some entry is about the field of a kind and name. -/
def about (entries : List Entry) (kind name : String) : Bool :=
  entries.any fun entry => entry.kind == kind && entry.name == name

/-- New descriptions that come from entries only, and give each its field. -/
structure Layout.Outcome (layout : Layout) (entries : List Entry) (new : NewTexts) : Prop where
  settled : ∀ entry ∈ entries, layout.Settled new entry
  others : ∀ kind name, (∀ entry ∈ entries, (kind, name) ≠ (entry.kind, entry.name)) →
    new kind name = none

namespace Layout.Outcome

variable {layout : Layout} {entries : List Entry} {new : NewTexts}

/-- A new description is the definition of an entry. -/
theorem entry (h : layout.Outcome entries new) {kind name text : String}
    (htext : new kind name = some text) :
    ∃ entry ∈ entries, (kind, name) = (entry.kind, entry.name) ∧ text = entry.definition := by
  by_contra hnone
  have hother : ∀ entry ∈ entries, (kind, name) ≠ (entry.kind, entry.name) := by
    intro entry hentry heq
    refine hnone ⟨entry, hentry, heq, (h.settled entry hentry).text text ?_⟩
    rw [← (Prod.mk.inj heq).1, ← (Prod.mk.inj heq).2, htext]
  rw [h.others kind name hother] at htext
  cases htext

theorem quotable (h : layout.Outcome entries new) (hfits : layout.Fits entries) :
    new.Quotable := by
  intro kind name text htext
  obtain ⟨entry, hentry, _, rfl⟩ := h.entry htext
  exact hfits.quotable entry hentry

theorem within (h : layout.Outcome entries new) : new.Within (about entries) := by
  intro kind name hsome
  obtain ⟨text, htext⟩ := Option.ne_none_iff_exists'.mp hsome
  obtain ⟨entry, hentry, heq, _⟩ := h.entry htext
  rw [about, List.any_eq_true]
  exact ⟨entry, hentry, by simp [(Prod.mk.inj heq).1, (Prod.mk.inj heq).2]⟩

end Layout.Outcome

/-! ## Documents in a store -/

/-- A document that is read has the entries of the text of its file. -/
theorem load_of_document {store : Store} {path text : String} (htext : store.read path = .ok text)
    {doc : Document} (h : Document.load store path = .ok doc) :
    Lookml.load (Text.unifyNewlines text.toList) = .ok doc.body := by
  rw [Document.load, if_pos (Store.contains_of_read htext), htext] at h
  dsimp only at h
  split at h
  · cases h
  split at h
  · cases h
  next body hbody =>
  cases h
  exact hbody

/-- A file with entries is read as a document, of the kind that its name tells. -/
theorem document_of_load {store : Store} {path text : String} (htext : store.read path = .ok text)
    {kind : DocumentKind}
    (hkind : DocumentKind.ofFileName? (Store.baseName path).toList = some kind) {body : Fields}
    (h : Lookml.load (Text.unifyNewlines text.toList) = .ok body) :
    ∃ doc, Document.load store path = .ok doc ∧ doc.kind = kind ∧ doc.body = body :=
  ⟨_, load_eq htext hkind h, rfl, rfl⟩

theorem readLines_eq {store : Store} {path text : String} (h : store.read path = .ok text) :
    readLines store path = .ok (Text.lines (Text.unifyNewlines text.toList)) := by
  rw [readLines, if_pos (Store.contains_of_read h), h]
  rfl

/-- **THE ROUND TRIP**: an update of a laid out view from definitions that fit it writes a document
in which each definition is found as the description of its field, and which is otherwise the
document that was read. -/
theorem run_round_trip {settings : Value} {store : Store} {database : Option Definitions.Database}
    {path out source file : String} {definitions : Definitions.Yield} {rows : List Row}
    {layout : Layout} {doc : Document} {entries : List Entry} {route : Route}
    (hsource : store.read path = .ok source)
    (hlayout : Text.unifyNewlines source.toList = layout.text)
    (hdoc : Document.load store path = .ok doc) (hview : doc.kind = .view)
    (hdefinitions : Definitions.ofSettings settings store database = .ok definitions)
    (hfile : nameInTable settings path = .ok file) (hrows : rowsIn definitions file = .ok rows)
    (hentries : List.Forall₂ Gives rows entries) (hfits : layout.Fits entries)
    (htight : layout.Tight entries) (htarget : (store.target out).file? = some route)
    (hout : DocumentKind.ofFileName? (Store.baseName out).toList = some .view) :
    ∃ after written, run settings store database (.text path) (.text out) = .ok after ∧
      Document.load after out = .ok written ∧
      (∀ entry ∈ entries, findDescription written (.text entry.kind) (.text entry.name) =
        .ok (.text entry.definition, true)) ∧
      bareBody (about entries) doc.body = bareBody (about entries) written.body := by
  have hload := load_of_document hsource hdoc
  rw [hlayout] at hload
  obtain ⟨_, hfields⟩ := layout.fields_of_load hload
  have hempty : ∀ entry ∈ entries, NewTexts.empty entry.kind entry.name = none :=
    fun _ _ => rfl
  obtain ⟨new, hfold, hsettled, hothers⟩ :=
    Layout.foldlM_describe hview hfields hentries hfits htight hempty
  have houtcome : layout.Outcome entries new := ⟨hsettled, hothers⟩
  have hquotable := houtcome.quotable hfits
  obtain ⟨body, hbody, hfields', hbare⟩ := layout.load_eq hquotable houtcome.within hload
  -- The lines are written as they are, and read back as they were written.
  have hreturn : '\r' ∉ (layout.lines new).flatten :=
    Layout.return_not_mem (by rw [← hlayout]; exact Text.not_mem_unifyNewlines _) hquotable
  obtain ⟨hwrite, hread⟩ := Store.read_write htarget (join (layout.lines new))
  obtain ⟨written, hwritten, hkind, hwrittenBody⟩ := document_of_load hread hout (by
    rw [join, String.toList_ofList, Text.unifyNewlines_of_not_mem hreturn]
    exact hbody)
  have hupdated : updated settings definitions store (.text path) = .ok (layout.lines new) := by
    rw [updated, Value.asPath]
    simp only [bind, Except.bind, readLines_eq hsource, hdoc, hfile, hrows, hlayout,
      layout.lines_text]
    exact hfold
  refine ⟨_, written, ?_, hwritten, ?_, by rw [hwrittenBody]; exact hbare⟩
  · rw [run, hdefinitions]
    simp only [bind, Except.bind, hupdated, Value.asTarget]
    exact hwrite
  · intro entry hentry
    obtain ⟨parts, field, parts', haround⟩ := hfits.around hentry
    rw [haround.findDescription_eq hkind (by rw [hwrittenBody]; exact hfields')]
    exact congrArg Except.ok
      ((hsettled entry hentry).described field (by simp [haround.split]) haround.found)

/-! ## Two views -/

/-- A store with one file. -/
def storeOf (file : String) (text : List Char) : Store :=
  { files := [([file], String.ofList text)] }

/-- Settings that name a database. -/
def databaseSettings : Value :=
  .record [("definitions", .record [("type", .text "SQLiteReader"), ("filename", .text "defs.db"),
    ("query", .text "select * from definitions")])]

/-- A database with definitions for a file. -/
def databaseOf (file : String) (entries : List Entry) : Definitions.Database :=
  ⟨["defs.db"], entries.map fun entry =>
    [.text file, .text entry.kind, .text entry.name, .text entry.definition]⟩

theorem ofSettings_database {store : Store} (h : store.find "defs.db" = .free ["defs.db"])
    (file : String) (entries : List Entry) :
    Definitions.ofSettings databaseSettings store (some (databaseOf file entries)) =
      .ok (.table { columns := Definitions.columns, rows := (databaseOf file entries).rows }) := by
  have hrows : Definitions.rowsOf (some (databaseOf file entries)) store "defs.db" =
      .ok (databaseOf file entries).rows := by
    rw [Definitions.rowsOf, if_neg (by decide), h]
    rfl
  have hfetch : Definitions.ofSettings databaseSettings store (some (databaseOf file entries)) =
      (Definitions.rowsOf (some (databaseOf file entries)) store "defs.db").bind fun rows =>
        .ok (.table { columns := Definitions.columns, rows := rows }) := rfl
  rw [hfetch, hrows]
  rfl

namespace Places

/-- A dimension whose description has two lines. -/
def city : FieldLines where
  header := { indent := [' ', ' '], key := "dimension", name := "city" }
  above := ⟨"    type: string\n".toList, [.pair "type" "string"], by decide, by cbv⟩
  old := some ⟨"    description: \"Old\n    words\"\n".toList, "Old\n    words", by decide, by cbv,
    by decide⟩
  below := ⟨"    sql: city ;;\n".toList, [.pair "sql" "city"], by decide, by cbv⟩
  footer := { indent := [' ', ' '] }
  kind := by decide
  opened := by decide
  closed := by decide
  plain := by decide
  sought := by decide

/-- A measure without a description. -/
def visits : FieldLines where
  header := { indent := [' ', ' '], key := "measure", name := "visits", trail := " # all".toList }
  above := ⟨"    type: sum\n".toList, [.pair "type" "sum"], by decide, by cbv⟩
  old := none
  below := ⟨[], [], by decide, by cbv⟩
  footer := { indent := [' ', ' '] }
  kind := by decide
  opened := by decide
  closed := by decide
  plain := by decide
  sought := by decide

/-- A view with the two fields. -/
def layout : Layout where
  before := ⟨"# Places\n".toList, [], by decide, by cbv⟩
  header := { key := "view", name := "places" }
  parts := [.other ⟨"  sql_table_name: places ;;\n".toList, [.pair "sql_table_name" "places"],
    by decide, by cbv⟩ (by decide), .field city, .field visits]
  indent := []
  tail := ['\n']
  after := []
  opened := by decide +kernel
  view := rfl
  closing := rfl
  read := by cbv
  single := by decide

/-- Definitions of the two fields. -/
def entries : List Entry :=
  [⟨"dimension", "city", "The town"⟩, ⟨"measure", "visits", "How often\nit was seen"⟩]

theorem fits : layout.Fits entries where
  distinct := by decide
  field := by
    intro entry hentry
    rcases List.mem_cons.mp hentry with rfl | hentry
    · exact ⟨city, .tail _ (.head _), rfl, rfl⟩
    · rw [List.mem_singleton.mp hentry]
      exact ⟨visits, .tail _ (.tail _ (.head _)), rfl, rfl⟩
  once := by decide +kernel
  nonempty := by decide
  quotable := by decide +kernel

theorem tight : layout.Tight entries := by
  intro entry _ field hfield _ old hold _
  rcases List.mem_cons.mp hfield with hother | hfield
  · cases hother
  rcases List.mem_cons.mp hfield with hcity | hfield
  · cases hcity
    cases hold
    rw [Described.Tight]
    decide +kernel
  · cases List.mem_singleton.mp hfield
    cases hold

end Places

/-- The update of the view. -/
theorem places_round_trip :
    ∃ doc after written, Document.load (storeOf "places.view.lkml" Places.layout.text)
        "places.view.lkml" = .ok doc ∧
      run databaseSettings (storeOf "places.view.lkml" Places.layout.text)
        (some (databaseOf "places.view.lkml" Places.entries)) (.text "places.view.lkml")
        (.text "out.view.lkml") = .ok after ∧
      Document.load after "out.view.lkml" = .ok written ∧
      (∀ entry ∈ Places.entries, findDescription written (.text entry.kind) (.text entry.name) =
        .ok (.text entry.definition, true)) ∧
      bareBody (about Places.entries) doc.body = bareBody (about Places.entries) written.body := by
  have hreturn : '\r' ∉ Places.layout.text := by decide +kernel
  have hkind : ((Document.load (storeOf "places.view.lkml" Places.layout.text)
      "places.view.lkml").toOption.map Document.kind) = some .view := by decide +kernel
  cases hdoc : Document.load (storeOf "places.view.lkml" Places.layout.text) "places.view.lkml" with
  | error fault => rw [hdoc] at hkind; cases hkind
  | ok doc =>
      rw [hdoc] at hkind
      have hview : doc.kind = .view := Option.some.inj hkind
      have hlayout : Text.unifyNewlines (String.ofList Places.layout.text).toList =
          Places.layout.text := by
        rw [String.toList_ofList, Text.unifyNewlines_of_not_mem hreturn]
      obtain ⟨after, written, hrun⟩ := run_round_trip rfl hlayout hdoc hview
        (ofSettings_database rfl "places.view.lkml" Places.entries) rfl rfl
        (.cons ⟨rfl, rfl, rfl⟩ (.cons ⟨rfl, rfl, rfl⟩ .nil)) Places.fits Places.tight
        (by rfl : (Store.target _ "out.view.lkml").file? = some ["out.view.lkml"]) (by decide)
      exact ⟨doc, after, written, rfl, hrun⟩

namespace Below

/-- A dimension whose description stands below its key. -/
def field : FieldLines where
  header := { indent := [' ', ' '], key := "dimension", name := "a" }
  above := ⟨[], [], by decide, by cbv⟩
  old := some ⟨"    description:\n      \"old\"\n".toList, "old", by decide, by cbv,
    by decide⟩
  below := ⟨"    type: string\n".toList, [.pair "type" "string"], by decide, by cbv⟩
  footer := { indent := [' ', ' '] }
  kind := by decide
  opened := by decide
  closed := by decide
  plain := by decide
  sought := by decide

/-- A view with the field. -/
def layout : Layout where
  before := ⟨[], [], by decide, by cbv⟩
  header := { key := "view", name := "v" }
  parts := [.field field]
  indent := []
  tail := ['\n']
  after := []
  opened := by decide +kernel
  view := rfl
  closing := rfl
  read := by cbv
  single := by decide

/-- A definition of the field. -/
def entries : List Entry := [⟨"dimension", "a", "new"⟩]

theorem fits : layout.Fits entries where
  distinct := by decide
  field := by
    intro entry hentry
    rw [List.mem_singleton.mp hentry]
    exact ⟨field, .head _, rfl, rfl⟩
  once := by decide +kernel
  nonempty := by decide
  quotable := by decide +kernel

/-- A view with a list under the name for its dimensions. -/
def listed : List Char :=
  "view: v \x7b\n  dimensions: [x]\n  dimension: a \x7b\n    type: string\n  \x7d\n\x7d\n".toList

end Below

/-- Where a description has more lines than its text, a line of it is left behind, and what is
written cannot be read; where a list has the name for the fields of a kind, they cannot be looked
up. -/
theorem below_no_round_trip :
    Below.layout.Fits Below.entries ∧
      (Document.load (storeOf "v.view.lkml" Below.layout.text) "v.view.lkml").isOk = true ∧
      ((run databaseSettings (storeOf "v.view.lkml" Below.layout.text)
        (some (databaseOf "v.view.lkml" Below.entries)) (.text "v.view.lkml")
        (.text "out.view.lkml")).toOption.map fun after =>
          (Document.load after "out.view.lkml").isOk) = some false ∧
      (Document.load (storeOf "v.view.lkml" Below.listed) "v.view.lkml").isOk = true ∧
      (run databaseSettings (storeOf "v.view.lkml" Below.listed)
        (some (databaseOf "v.view.lkml" Below.entries)) (.text "v.view.lkml")
        (.text "out.view.lkml")).isOk = false :=
  ⟨Below.fits, by decide +kernel, by decide +kernel, by decide +kernel, by decide +kernel⟩

end LookmlProject.Update
