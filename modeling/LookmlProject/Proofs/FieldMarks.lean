import LookmlProject.Lint.Linter
import LookmlProject.Proofs.Entries
import Mathlib.Data.List.Forall2

/-! # Marks that no later judgement sees

    Judging the fields of a view writes the kind into each of them, and the view keeps
    these marks.  A judgement puts its own mark over the one it finds, so the marks of
    earlier judgements, with whatever kinds and keys, and of such as a fault ended, are
    never seen:

    * a later mark replaces an earlier one (`mark_mark`);
    * **one judgement** of a view that differs from another in marks only has the same
      rows and the same fault as one of the other, and leaves a view that still differs
      from it in marks only (`ViewMarked.step`);
    * so do all judgements of a history (`ViewMarked.run`), where each list has marks
      of the judgements that asked for its key. -/

namespace LookmlProject.Lint

open Value Lookml Linter

/-! ## Views that differ in marks -/

/-- A later value under a key replaces an earlier one, at its place. -/
theorem set_set (fields : Fields) (key : String) (v w : Value) :
    Fields.set (Fields.set fields key v) key w = Fields.set fields key w := by
  induction fields with
  | nil => rw [Fields.set, Fields.set, Fields.set, if_pos rfl]
  | cons entry fields ih =>
      obtain ⟨k, x⟩ := entry
      by_cases hk : k = key
      · rw [Fields.set, Fields.set, if_pos hk, Fields.set, if_pos hk, if_pos hk]
      · rw [Fields.set, Fields.set, if_neg hk, Fields.set, if_neg hk, if_neg hk, ih]

theorem mark_mark (first second : Value) (parameters : Fields) :
    mark second (mark first parameters) = mark second parameters :=
  set_set parameters "_type" first second

/-- What an element of a list becomes: a field gets a mark, or the element stays as it is. -/
inductive ItemMarked (marks : Value → Prop) : Value → Value → Prop
  | same (item : Value) : ItemMarked marks item item
  | field {kind : Value} (h : marks kind) (parameters : Fields) :
      ItemMarked marks (.record parameters) (.record (mark kind parameters))

/-- What an entry of a view becomes: the elements of a list get marks, or the entry stays as it
is. -/
inductive EntryMarked (marks : Value → Prop) : Value → Value → Prop
  | same (v : Value) : EntryMarked marks v v
  | list {items after : List Value} (h : List.Forall₂ (ItemMarked marks) items after) :
      EntryMarked marks (.list items) (.list after)

/-- Entries of a view, in their order, and what they become by the marks for their keys. -/
def EntriesMarked (marks : String → Value → Prop) : Fields → Fields → Prop :=
  List.Forall₂ fun entry after => after.1 = entry.1 ∧ EntryMarked (marks entry.1) entry.2 after.2

/-- What a view becomes: the elements of its lists get marks, and nothing else changes. -/
inductive ViewMarked (marks : String → Value → Prop) : Value → Value → Prop
  | same (view : Value) : ViewMarked marks view view
  | record {fields after : Fields} (h : EntriesMarked marks fields after) :
      ViewMarked marks (.record fields) (.record after)

/-! ## One list -/

section Items

variable {marks : Value → Prop} {items after : List Value} (rules : List Rule) {kind : Value}
  (file : Value)

/-- What is made of a field, and of the rest of a list behind it. -/
theorem judgeItems_record (parameters : Fields) (rest : List Value) :
    judgeItems rules kind file (.record parameters :: rest) =
      (.record (mark kind parameters) ::
        (if (Trail.flatMap (fieldRow (mark kind parameters) kind file) rules).fault.isSome then rest
          else (judgeItems rules kind file rest).1),
      Trail.flatMap (fieldRow (mark kind parameters) kind file) rules ++
        (judgeItems rules kind file rest).2) := by
  rw [judgeItems]
  generalize Trail.flatMap (fieldRow (mark kind parameters) kind file) rules = trail
  obtain ⟨steps, fault⟩ := trail
  cases fault <;> rfl

/-- At an element that is no field the judgement ends. -/
theorem judgeItems_of_not_record {item : Value} (h : ∀ parameters, item ≠ .record parameters)
    (rest : List Value) :
    judgeItems rules kind file (item :: rest) = (item :: rest, .stop .wrongShape) := by
  cases item with
  | record parameters => exact absurd rfl (h parameters)
  | null | bool | int | float | text | list => rfl

/-- Two elements that differ in a mark are fields that a new mark makes equal, or they are the same
and no field. -/
theorem ItemMarked.field_or_same {item item' : Value} (h : ItemMarked marks item item') :
    (∃ parameters parameters', item = .record parameters ∧ item' = .record parameters' ∧
      ∀ kind, mark kind parameters' = mark kind parameters) ∨
    (item' = item ∧ ∀ parameters, item ≠ .record parameters) := by
  cases h with
  | field _ parameters =>
      exact .inl ⟨_, _, rfl, rfl, fun kind => mark_mark _ kind parameters⟩
  | same =>
      cases item with
      | record parameters => exact .inl ⟨_, _, rfl, rfl, fun _ => rfl⟩
      | null | bool | int | float | text | list => exact .inr ⟨rfl, nofun⟩

theorem judgeItems_trail (h : List.Forall₂ (ItemMarked marks) items after) :
    (judgeItems rules kind file after).2 = (judgeItems rules kind file items).2 := by
  induction h with
  | nil => rfl
  | cons hitem _ ih =>
      rcases hitem.field_or_same with ⟨_, _, rfl, rfl, hmark⟩ | ⟨rfl, hother⟩
      · rw [judgeItems_record, judgeItems_record, hmark, ih]
      · rw [judgeItems_of_not_record _ _ hother, judgeItems_of_not_record _ _ hother]

/-- The fields up to the one where a fault ends the judgement get its mark; the others keep what
they have. -/
theorem judgeItems_marked (hkind : marks kind) (h : List.Forall₂ (ItemMarked marks) items after) :
    List.Forall₂ (ItemMarked marks) items (judgeItems rules kind file after).1 := by
  induction h with
  | nil => exact .nil
  | cons hitem hrest ih =>
      rcases hitem.field_or_same with ⟨parameters, _, rfl, rfl, hmark⟩ | ⟨rfl, hother⟩
      · rw [judgeItems_record, hmark]
        refine .cons (.field hkind parameters) ?_
        split
        · exact hrest
        · exact ih
      · rw [judgeItems_of_not_record _ _ hother]
        exact .cons hitem hrest

end Items

/-! ## One view -/

section Entries

variable {marks : String → Value → Prop} {fields after : Fields} {key : String}

/-- Two entries that differ in marks are lists of elements that do, or they are the same and no
list. -/
theorem EntryMarked.list_or_same {marks : Value → Prop} {v w : Value} (h : EntryMarked marks v w) :
    (∃ items after, v = .list items ∧ w = .list after ∧
      List.Forall₂ (ItemMarked marks) items after) ∨
    (w = v ∧ ∀ items, v ≠ .list items) := by
  cases h with
  | list h => exact .inl ⟨_, _, rfl, rfl, h⟩
  | same =>
      cases v with
      | list items => exact .inl ⟨_, _, rfl, rfl, List.forall₂_same.mpr fun item _ => .same item⟩
      | null | bool | int | float | text | record => exact .inr ⟨rfl, nofun⟩

/-- The two have the same keys. -/
theorem EntriesMarked.get? (h : EntriesMarked marks fields after) (key : String) :
    (Fields.get? fields key = none ∧ Fields.get? after key = none) ∨
    ∃ v w, Fields.get? fields key = some v ∧ Fields.get? after key = some w ∧
      EntryMarked (marks key) v w := by
  induction h with
  | nil => exact .inl ⟨rfl, rfl⟩
  | @cons entry entry' fields after hentry _ ih =>
      obtain ⟨k, v⟩ := entry
      obtain ⟨k', w⟩ := entry'
      obtain ⟨rfl, hmarked⟩ : k' = k ∧ EntryMarked (marks k) v w := hentry
      by_cases hk : k' = key
      · subst hk
        exact .inr ⟨v, w, by simp [Fields.get?], by simp [Fields.get?], hmarked⟩
      · simpa only [Fields.get?, if_neg hk] using ih

/-- One entry may get further marks. -/
theorem EntriesMarked.set {v w : Value} (h : EntriesMarked marks fields after)
    (hget : Fields.get? fields key = some v) (hmarked : EntryMarked (marks key) v w) :
    EntriesMarked marks fields (Fields.set after key w) := by
  induction h with
  | nil => cases hget
  | @cons entry entry' fields after hentry hrest ih =>
      obtain ⟨k, x⟩ := entry
      obtain ⟨k', y⟩ := entry'
      obtain ⟨rfl, hxy⟩ : k' = k ∧ EntryMarked (marks k) x y := hentry
      by_cases hk : k' = key
      · subst hk
        rw [Fields.get?, if_pos rfl] at hget
        obtain rfl := Option.some.inj hget
        rw [Fields.set, if_pos rfl]
        exact .cons ⟨rfl, hmarked⟩ hrest
      · rw [Fields.get?, if_neg hk] at hget
        rw [Fields.set, if_neg hk]
        exact .cons ⟨rfl, hxy⟩ (ih hget)

end Entries

section Views

variable (linter : Linter) (kind file : Value) {fields : Fields} {key : String}

theorem judgeFields_of_none (h : Fields.get? fields key = none) :
    linter.judgeFields (.record fields) kind (.text key) file = ⟨.record fields, .nil⟩ := by
  rw [judgeFields, Value.holds, Fields.has, h]
  rfl

theorem judgeFields_of_list {items : List Value} (h : Fields.get? fields key = some (.list items)) :
    linter.judgeFields (.record fields) kind (.text key) file =
      ⟨.record (Fields.set fields key (.list (judgeItems linter.fieldRules kind file items).1)),
        (judgeItems linter.fieldRules kind file items).2⟩ := by
  rw [judgeFields, Value.holds, Fields.has, h]
  dsimp only [Option.isSome_some]
  rw [Value.lookup, h]

/-- An entry that is no list is not changed, and what is made of it depends on nothing else. -/
theorem judgeFields_of_not_list {v : Value} (hv : ∀ items, v ≠ .list items) {fields' : Fields}
    (h : Fields.get? fields key = some v) (h' : Fields.get? fields' key = some v) :
    (linter.judgeFields (.record fields') kind (.text key) file).view = .record fields' ∧
    (linter.judgeFields (.record fields') kind (.text key) file).trail =
      (linter.judgeFields (.record fields) kind (.text key) file).trail := by
  rw [judgeFields, judgeFields, Value.holds, Value.holds, Fields.has, Fields.has, h, h']
  dsimp only [Option.isSome_some]
  rw [Value.lookup, Value.lookup, h, h']
  cases v with
  | list items => exact absurd rfl (hv items)
  | null | bool | int | float | text | record =>
      dsimp only
      split <;> exact ⟨rfl, rfl⟩

/-- A key that is no text is not found in a record. -/
theorem judgeFields_of_not_text {key : Value} (hkey : ∀ s, key ≠ .text s) (fields' : Fields) :
    (linter.judgeFields (.record fields') kind key file).view = .record fields' ∧
    (linter.judgeFields (.record fields') kind key file).trail =
      (linter.judgeFields (.record fields) kind key file).trail := by
  cases key with
  | text s => exact absurd rfl (hkey s)
  | null | bool | int | float | list | record => exact ⟨rfl, rfl⟩

/-- A value that is no record stays as it is. -/
theorem judgeFields_of_not_record {view : Value} (hview : ∀ fields, view ≠ .record fields)
    (key : Value) : (linter.judgeFields view kind key file).view = view := by
  unfold judgeFields
  split
  · rfl
  · rfl
  · split
    · next fields _ _ => exact absurd rfl (hview fields)
    · rfl

end Views

/-! ## One judgement, and a history of them -/

/-- A judgement of the fields of a view: by which linter, under which key, of what kind the fields
are said to be, and which file its rows name. -/
structure Judgement where
  linter : Linter
  kind : Value
  key : Value
  file : Value

/-- A judgement as it is made of a view. -/
def Judgement.of (judgement : Judgement) (view : Value) : FieldPass :=
  judgement.linter.judgeFields view judgement.kind judgement.key judgement.file

/-- The view after all judgements of a history, whether faults ended them or not. -/
def viewAfter (history : List Judgement) (view : Value) : Value :=
  history.foldl (fun view judgement => (judgement.of view).view) view

/-- The marks that the judgements of a history give under a key. -/
def marksOf (history : List Judgement) (key : String) (kind : Value) : Prop :=
  ∃ judgement ∈ history, judgement.key = .text key ∧ judgement.kind = kind

namespace ViewMarked

variable {marks : String → Value → Prop} {view after : Value}

theorem record_or_same (h : ViewMarked marks view after) :
    (∃ fields fields', view = .record fields ∧ after = .record fields' ∧
      EntriesMarked marks fields fields') ∨
    (after = view ∧ ∀ fields, view ≠ .record fields) := by
  cases h with
  | record h => exact .inl ⟨_, _, rfl, rfl, h⟩
  | same =>
      cases view with
      | record fields =>
          exact .inl ⟨_, _, rfl, rfl, List.forall₂_same.mpr fun entry _ => ⟨rfl, .same entry.2⟩⟩
      | null | bool | int | float | text | list => exact .inr ⟨rfl, nofun⟩

/-- **ONE JUDGEMENT** does not see marks: of a view that differs from another in marks only it
makes the same rows, and it ends with the same fault, if any, as it does of the other; and it leaves
a view that differs from the other in marks only. -/
theorem step (h : ViewMarked marks view after) (judgement : Judgement)
    (hmarks : ∀ key, judgement.key = .text key → marks key judgement.kind) :
    ViewMarked marks view (judgement.of after).view ∧
    (judgement.of after).trail = (judgement.of view).trail := by
  obtain ⟨linter, kind, key, file⟩ := judgement
  show ViewMarked marks view (linter.judgeFields after kind key file).view ∧
    (linter.judgeFields after kind key file).trail = (linter.judgeFields view kind key file).trail
  rcases h.record_or_same with ⟨fields, fields', rfl, rfl, hentries⟩ | ⟨rfl, hother⟩
  · by_cases hkey : ∃ name, key = .text name
    · obtain ⟨name, rfl⟩ := hkey
      rcases hentries.get? name with ⟨hnone, hnone'⟩ | ⟨v, w, hv, hw, hmarked⟩
      · rw [judgeFields_of_none _ _ _ hnone, judgeFields_of_none _ _ _ hnone']
        exact ⟨h, rfl⟩
      · rcases hmarked.list_or_same with ⟨items, items', rfl, rfl, hitems⟩ | ⟨rfl, hother⟩
        · rw [judgeFields_of_list _ _ _ hv, judgeFields_of_list _ _ _ hw]
          have hagain := judgeItems_marked linter.fieldRules file (hmarks name rfl) hitems
          exact ⟨.record (hentries.set hv (.list hagain)), judgeItems_trail _ _ hitems⟩
        · obtain ⟨hview, htrail⟩ := judgeFields_of_not_list linter kind file hother hv hw
          rw [hview]
          exact ⟨h, htrail⟩
    · obtain ⟨hview, htrail⟩ := judgeFields_of_not_text linter kind file (not_exists.mp hkey) fields'
      rw [hview]
      exact ⟨h, htrail⟩
  · rw [judgeFields_of_not_record _ _ _ hother]
    exact ⟨h, rfl⟩

/-- **A HISTORY** of judgements leaves a view that differs from the original in marks only. -/
theorem run (history : List Judgement) (hmarks : ∀ judgement ∈ history, ∀ key,
    judgement.key = .text key → marks key judgement.kind) :
    ∀ {after : Value}, ViewMarked marks view after →
      ViewMarked marks view (viewAfter history after) := by
  induction history with
  | nil => exact fun h => h
  | cons judgement rest ih =>
      intro after h
      have hfirst := (h.step judgement (hmarks judgement List.mem_cons_self)).1
      exact ih (fun later hlater => hmarks later (List.mem_cons_of_mem _ hlater)) hfirst

end ViewMarked

/-- **MARKS ARE NOT SEEN**: after any history of judgements of a view, by any linters, of any kinds
and under any keys, and also where faults ended them, a further judgement makes the same rows, and
ends with the same fault, if any, as it does of the view as it was read.  The history has changed
the view in marks only: an element of a list under a key is as it was, or it is the field that it
was with the mark of a judgement under that key. -/
theorem judgement_after_history (history : List Judgement) (judgement : Judgement) (view : Value) :
    (judgement.of (viewAfter history view)).trail = (judgement.of view).trail ∧
    ViewMarked (marksOf history) view (viewAfter history view) := by
  have hafter : ViewMarked (marksOf history) view (viewAfter history view) :=
    ViewMarked.run history (fun each heach key hkey => ⟨each, heach, hkey, rfl⟩) (.same view)
  -- The further judgement has marks of its own, which the history need not have.
  have hany : ViewMarked (fun _ _ => True) view (viewAfter history view) :=
    ViewMarked.run history (fun _ _ _ _ => trivial) (.same view)
  exact ⟨(hany.step judgement fun _ _ => trivial).2, hafter⟩

/-- A measure without a type, judged as if it were a dimension, ends the judgement: it keeps the
mark, and the measure behind it has none. -/
example : viewAfter [⟨⟨.null, [], [⟨.yesNoName, .null⟩]⟩, .text "dimension", .text "measures", .null⟩]
      (.record [("measures", .list [.record [("name", .text "a")], .record [("name", .text "b")]])]) =
    .record [("measures", .list [.record [("name", .text "a"), ("_type", .text "dimension")],
      .record [("name", .text "b")]])] := rfl

end LookmlProject.Lint
