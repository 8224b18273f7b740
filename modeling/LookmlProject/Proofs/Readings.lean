import LookmlProject.Proofs.AllOrNothing

/-! # Rows with other values in place of texts

    A source of definitions may give a row with numbers, truth values or missing
    cells where another gives texts.  `ReadsAlike` says which of these differences an
    update does not see.  The route:

    * documents are made of texts at every depth (`textual_of_load`), so a scalar is
      the name of no field, and looking for it stops where looking for a text
      without a field does (`fieldNamed_of_scalar`);
    * the search for a description is a search for the one view and then for the
      field (`findDescription_split`), and fails alike (`findDescription_of_error`);
    * so rows that are alike are described alike, whatever the lines
      (`ReadsAlike.describe_eq`). -/

namespace LookmlProject

/-! ## Values made of texts -/

namespace Value

/-- A value that is neither a text nor made of parts: a number, a truth value or none. -/
def IsScalar : Value → Prop
  | .text _ | .list _ | .record _ => False
  | _ => True

/-- A value made of texts, at every depth. -/
inductive Textual : Value → Prop where
  | text (s : String) : Textual (.text s)
  | list {items : List Value} : (∀ v ∈ items, Textual v) → Textual (.list items)
  | record {fields : Fields} : (∀ key v, Fields.get? fields key = some v → Textual v) →
      Textual (.record fields)

/-- A scalar has no length. -/
theorem length_of_scalar {v : Value} (h : v.IsScalar) : v.length = .error .wrongShape := by
  cases v <;> first | rfl | exact h.elim

/-- No value made of texts equals a scalar. -/
theorem Textual.beq_scalar {v scalar : Value} (h : v.Textual) (hscalar : scalar.IsScalar) :
    (v == scalar) = false := by
  cases h <;> cases scalar <;> first | rfl | exact hscalar.elim

/-- The parameters of a value made of texts are made of texts. -/
theorem Textual.lookup {v x : Value} {key : String} (h : v.Textual) (hx : v.lookup key = .ok x) :
    x.Textual := by
  obtain ⟨fields, rfl, hget⟩ := Update.eq_record_of_lookup hx
  cases h with
  | record hfields => exact hfields key x hget

/-- The elements of a value made of texts are made of texts. -/
theorem Textual.elements {v : Value} {items : List Value} (h : v.Textual)
    (hitems : v.elements = .ok items) : ∀ item ∈ items, item.Textual := by
  cases h with
  | text s =>
      cases hitems
      intro item hitem
      obtain ⟨c, _, rfl⟩ := List.mem_map.mp hitem
      exact .text _
  | list hlist => cases hitems; exact hlist
  | record _ =>
      cases hitems
      intro item hitem
      obtain ⟨entry, _, rfl⟩ := List.mem_map.mp hitem
      exact .text _

theorem Textual.nth_zero {v x : Value} (h : v.Textual) (hx : v.nth 0 = .ok x) : x.Textual := by
  cases h with
  | text s =>
      rw [Value.nth] at hx
      cases htext : s.toList with
      | nil => rw [htext] at hx; cases hx
      | cons c rest => rw [htext] at hx; cases hx; exact .text _
  | @list items hlist =>
      cases items with
      | nil => cases hx
      | cons item rest => cases hx; exact hlist _ List.mem_cons_self
  | record _ => cases hx

theorem textual_nil : (Value.record []).Textual := by
  refine .record fun key v hget => ?_
  exact nomatch hget

end Value

namespace Lookml

open Value

/-- One more entry made of texts. -/
theorem textual_set {fields : Fields} (h : (Value.record fields).Textual) {v : Value}
    (hv : v.Textual) (key : String) : (Value.record (Fields.set fields key v)).Textual := by
  cases h with
  | record hfields =>
      refine .record fun key' v' hget => ?_
      rw [get?_set] at hget
      split at hget
      · cases hget; exact hv
      · exact hfields key' v' hget

/-- An item made of texts is placed among texts. -/
theorem textual_place {top : Bool} {fields after : Fields} {key : String} {v : Value}
    (h : (Value.record fields).Textual) (hv : v.Textual)
    (hplace : place top fields key v = .ok after) : (Value.record after).Textual := by
  rw [place] at hplace
  split at hplace
  · split at hplace
    · cases hplace
      exact textual_set h (.list (by simpa using hv)) _
    · next items hitems =>
        cases hplace
        cases h with
        | record hfields =>
            cases hfields _ _ hitems with
            | list hlist =>
                refine textual_set (.record hfields) (.list fun item hitem => ?_) _
                rcases List.mem_append.mp hitem with hold | hnew
                · exact hlist item hold
                · exact List.mem_singleton.mp hnew ▸ hv
    · cases hplace
  · split at hplace
    · cases hplace
    · cases hplace
      exact textual_set h hv key

mutual

/-- **AN ITEM** has a value made of texts. -/
theorem textual_value : ∀ (item : Item) {v : Value}, item.value = .ok v → v.Textual
  | .pair _ value, v, h => by cases h; exact .text value
  | .values _ items, v, h => by
      cases h
      refine .list fun item hitem => ?_
      obtain ⟨s, _, rfl⟩ := List.mem_map.mp hitem
      exact .text s
  | .pairs _ items, v, h => by
      cases h
      refine .list fun item hitem => ?_
      obtain ⟨pair, _, rfl⟩ := List.mem_map.mp hitem
      refine .record fun key v hget => ?_
      rw [Fields.get?] at hget
      split at hget
      · cases hget; exact .text _
      · exact nomatch hget
  | .block _ name body, v, h => by
      rw [Item.value] at h
      split at h
      · exact nomatch h
      next fields hfields =>
      have hbody := textual_addAll body textual_nil hfields
      split at h
      · cases h; exact hbody
      · cases h; exact textual_set hbody (.text _) "name"

/-- **ITEMS** that are added to entries made of texts leave such entries. -/
theorem textual_addAll {top : Bool} : ∀ (items : List Item) {fields after : Fields},
    (Value.record fields).Textual → Item.addAll top fields items = .ok after →
      (Value.record after).Textual
  | [], fields, after, hfields, h => by cases h; exact hfields
  | item :: rest, fields, after, hfields, h => by
      rw [Item.addAll] at h
      split at h
      · exact nomatch h
      next v hv =>
      split at h
      · exact nomatch h
      next next' hplace =>
      exact textual_addAll rest (textual_place hfields (textual_value item hv) hplace) h

end

/-- **DOCUMENTS** are made of texts. -/
theorem textual_of_load {text : List Char} {body : Fields} (h : load text = .ok body) :
    (Value.record body).Textual := by
  rw [load] at h
  split at h
  · exact nomatch h
  · exact textual_addAll _ textual_nil h

/-- The views of a document that was read are made of texts, if there are any. -/
theorem textual_views {store : Store} {path : String} {doc : Document}
    (h : Document.load store path = .ok doc) (hviews : ¬ doc.views.IsScalar) :
    doc.views.Textual := by
  obtain ⟨_, _, text, _, hbody⟩ := Update.exists_of_load h
  rw [Document.views, Document.views?] at hviews ⊢
  cases hget : Fields.get? doc.body "views" with
  | none => rw [hget] at hviews; exact absurd trivial hviews
  | some views =>
      cases textual_of_load hbody with
      | record hfields => exact hfields "views" views hget

end Lookml

namespace Update

open Lookml Edit Value

/-! ## Scalars as names -/

/-- **A SCALAR IS NO NAME**: looking for it among fields ends as looking for any other name that no
field has. -/
theorem fieldNamed_of_scalar {name scalar : Value} (hscalar : scalar.IsScalar)
    {fields : List Value} (hfields : ∀ field ∈ fields, field.Textual)
    (hnone : ∀ field, fieldNamed name fields ≠ .ok (some field)) :
    fieldNamed scalar fields = fieldNamed name fields := by
  induction fields with
  | nil => rfl
  | cons first rest ih =>
      obtain ⟨hfirst, hrest⟩ := List.forall_mem_cons.mp hfields
      rw [fieldNamed] at hnone ⊢
      rw [fieldNamed]
      cases htitle : first.lookup "name" with
      | error fault => rfl
      | ok title =>
          rw [htitle] at hnone
          have hother : (title == scalar) = false := (hfirst.lookup htitle).beq_scalar hscalar
          cases hsame : title == name with
          | true => exact absurd (by simp [bind, Except.bind, hsame]; rfl) (hnone first)
          | false =>
              have hnone' : ∀ field, fieldNamed name rest ≠ .ok (some field) := by
                intro field hfield
                refine hnone field ?_
                simp only [bind, Except.bind, hsame, Bool.false_eq_true, if_false]
                exact hfield
              simp only [bind, Except.bind, hother, hsame, Bool.false_eq_true, if_false]
              exact ih hrest hnone'

/-- The view that a document is about, if it is just one. -/
def onlyView (doc : Document) : Except Fault Value := do
  if doc.kind ≠ .view then throw (.notView doc.kind.name)
  let count ← doc.views.length
  if 1 < count then throw (.severalViews count)
  doc.views.nth 0

/-- The field of a view with the given kind and name, if there is one. -/
def fieldIn (view : Value) (kind : String) (name : Value) : Except Fault (Option Value) := do
  if ← view.has (kind ++ "s") then
    fieldNamed name (← (← view.lookup (kind ++ "s")).elements)
  else return none

/-- The description of a field, and whether it has one. -/
def descriptionOf (field : Value) : Except Fault (Value × Bool) := do
  if ← field.has "description" then return (← field.lookup "description", true)
  else return (.text "", false)

/-- A description is looked for in the one view, if its kind is known, and there in its field. -/
theorem findDescription_split (doc : Document) (kind name : Value) :
    findDescription doc kind name = onlyView doc >>= fun view =>
      if fieldKinds.any (kind.isText ·) then
        fieldIn view kind.display name >>= fun field? =>
          match field? with
          | none => .error (.fieldMissing kind.display name.display)
          | some field => descriptionOf field
      else .error (.unknownFieldKind kind.display) := by
  rw [findDescription, onlyView]
  split
  · rfl
  dsimp only
  cases doc.views.length with
  | error fault => rfl
  | ok count =>
      simp only [bind, Except.bind]
      split
      · rfl
      cases doc.views.nth 0 with
      | error fault => rfl
      | ok view =>
          dsimp only
          split
          swap
          · rfl
          rw [fieldIn]
          cases view.has (kind.display ++ "s") with
          | error fault => rfl
          | ok has =>
              cases has with
              | false => rfl
              | true =>
                  simp only [bind, Except.bind, if_true]
                  cases view.lookup (kind.display ++ "s") with
                  | error fault => rfl
                  | ok listed =>
                      dsimp only
                      cases listed.elements with
                      | error fault => rfl
                      | ok fields => rfl

/-- The one view of a document that was read is made of texts. -/
theorem textual_onlyView {store : Store} {path : String} {doc : Document}
    (h : Document.load store path = .ok doc) {view : Value} (hview : onlyView doc = .ok view) :
    view.Textual := by
  rw [onlyView] at hview
  split at hview
  · exact nomatch hview
  obtain ⟨count, hcount, hview⟩ := bind_eq_ok.mp hview
  dsimp only at hview
  split at hview
  · exact nomatch hview
  have hviews : ¬ doc.views.IsScalar := fun hscalar =>
    nomatch (length_of_scalar hscalar).symm.trans hcount
  exact (textual_views h hviews).nth_zero hview

/-- Looking for a scalar in a view ends as looking for a name that no field has. -/
theorem fieldIn_of_scalar {view name scalar : Value} {kind : String} (hview : view.Textual)
    (hscalar : scalar.IsScalar) (hnone : ∀ field, fieldIn view kind name ≠ .ok (some field)) :
    fieldIn view kind scalar = fieldIn view kind name := by
  rw [fieldIn] at hnone ⊢
  rw [fieldIn]
  cases hhas : view.has (kind ++ "s") with
  | error fault => rfl
  | ok has =>
      cases has with
      | false => rfl
      | true =>
          simp only [hhas, bind, Except.bind, if_true] at hnone ⊢
          cases hlisted : view.lookup (kind ++ "s") with
          | error fault => rfl
          | ok listed =>
              simp only [hlisted] at hnone ⊢
              cases hfields : listed.elements with
              | error fault => rfl
              | ok fields =>
                  simp only [hfields] at hnone
                  exact fieldNamed_of_scalar hscalar ((hview.lookup hlisted).elements hfields) hnone

/-- A field that is found has a description, or none, to give. -/
theorem descriptionOf_of_fieldIn {view name field : Value} {kind : String}
    (h : fieldIn view kind name = .ok (some field)) : ∃ found, descriptionOf field = .ok found := by
  obtain ⟨has, _, h⟩ := bind_eq_ok.mp h
  split at h
  swap
  · exact nomatch h
  obtain ⟨listed, _, h⟩ := bind_eq_ok.mp h
  obtain ⟨fields, _, hfield⟩ := bind_eq_ok.mp h
  obtain ⟨_, _, _, _, title, htitle, _⟩ := (fieldNamed_eq_some_iff _ _ _).mp hfield
  obtain ⟨entries, rfl, _⟩ := eq_record_of_lookup htitle
  simp only [descriptionOf, bind, Except.bind, Value.has, Value.holds, Fields.has, Value.lookup]
  cases Fields.get? entries "description" with
  | none => exact ⟨_, rfl⟩
  | some description => exact ⟨_, rfl⟩

/-! ## Rows that are described alike -/

/-- A value is what a text is read as: the text, or a scalar. -/
def IsReading (s : String) (v : Value) : Prop := v = .text s ∨ v.IsScalar

/-- A text is a known kind exactly if it is one of them. -/
theorem any_isText_iff {kind : String} :
    fieldKinds.any ((Value.text kind).isText ·) = true ↔ kind ∈ fieldKinds := by
  rw [List.any_eq_true]
  constructor
  · rintro ⟨known, hknown, htext⟩
    rw [Value.isText, beq_iff_eq] at htext
    exact htext ▸ hknown
  · exact fun h => ⟨kind, h, by simp [Value.isText]⟩

theorem isText_of_scalar {v : Value} (h : v.IsScalar) (s : String) : v.isText s = false := by
  cases v <;> first | rfl | exact h.elim

/-- **A SEARCH FAILS ALIKE** for a kind and a name that are read as other values, if these print as
the text that the fault gives. -/
theorem findDescription_of_error {store : Store} {path : String} {doc : Document}
    (hdoc : Document.load store path = .ok doc) {kind name : String} {kind' name' : Value}
    (hkind : IsReading kind kind') (hknown : kind ∈ fieldKinds → kind' = .text kind)
    (hname : IsReading name name') {fault : Fault}
    (h : findDescription doc (.text kind) (.text name) = .error fault)
    (hunknown : ∀ k, fault = .unknownFieldKind k → kind'.display = kind)
    (hmissing : ∀ k n, fault = .fieldMissing k n → name'.display = name) :
    findDescription doc kind' name' = .error fault := by
  rw [findDescription_split] at h ⊢
  cases hview : onlyView doc with
  | error cause => rw [hview] at h; exact h
  | ok view =>
      rw [hview] at h
      simp only [bind, Except.bind] at h ⊢
      -- A known kind is read as itself, so only the name may differ; an unknown one is unknown
      -- either way.
      by_cases hfieldKind : kind ∈ fieldKinds
      · obtain rfl := hknown hfieldKind
        rw [if_pos (any_isText_iff.mpr hfieldKind)] at h ⊢
        rcases hname with rfl | hscalar
        · exact h
        have htext : (Value.text kind).display = kind := rfl
        rw [htext] at h ⊢
        have hnone : ∀ field, fieldIn view kind (.text name) ≠ .ok (some field) := by
          intro field hfield
          obtain ⟨found, hfound⟩ := descriptionOf_of_fieldIn hfield
          rw [hfield] at h
          exact nomatch hfound.symm.trans h
        rw [fieldIn_of_scalar (textual_onlyView hdoc hview) hscalar hnone]
        cases hfield : fieldIn view kind (.text name) with
        | error cause => rw [hfield] at h; exact h
        | ok field? =>
            cases field? with
            | none =>
                rw [hfield] at h
                cases h
                dsimp only
                rw [hmissing _ _ rfl]
                rfl
            | some field => exact absurd hfield (hnone field)
      · rw [if_neg (mt any_isText_iff.mp hfieldKind)] at h
        cases h
        have hany : ¬ fieldKinds.any (kind'.isText ·) = true := by
          rcases hkind with rfl | hscalar
          · exact mt any_isText_iff.mp hfieldKind
          · simp [isText_of_scalar hscalar]
        rw [if_neg hany, hunknown _ rfl]
        rfl

/-- A row of definitions whose cells are texts. -/
structure TextRow where
  file : String
  kind : String
  name : String
  definition : String

/-- The cells of a row that an update looks at. -/
structure HasCells (row : Row) (kind name definition : Value) : Prop where
  kind : cell row "type" = .ok kind
  name : cell row "name" = .ok name
  definition : cell row "definition" = .ok definition

theorem HasCells.describe_eq {row : Row} {kind name definition : Value}
    (h : HasCells row kind name definition) (doc : Document) (lines : List Line) :
    describe doc lines row = findDescription doc kind name >>= fun found =>
      lineCount found.1 >>= fun count =>
        if isCurrent found.1 definition then .ok lines
        else .ok (modify count kind.display.toList name.display.toList definition.display.toList
          found.2 lines) := by
  rw [describe, h.kind]
  simp only [bind, Except.bind, h.name, h.definition]
  rfl

/-- A row of texts is read with values that a document does not tell from the texts: what is looked
up or compared is the text itself, and what is only written, be it in a fault, prints as the
text. -/
def ReadsAlike (doc : Document) (row : TextRow) (kind name definition : Value) : Prop :=
  match findDescription doc (.text row.kind) (.text row.name) with
  | .error (.unknownFieldKind _) => kind.display = row.kind
  | .error (.fieldMissing _ _) => name.display = row.name
  | .error _ => True
  | .ok (old, _) => name = .text row.name ∧
    if isCurrent old (.text row.definition) then definition = .text row.definition
    else definition.display = row.definition

theorem eq_text_of_lineCount {v : Value} {count : Nat} (h : lineCount v = .ok count) :
    ∃ s, v = .text s := by
  cases v with
  | text s => exact ⟨s, rfl⟩
  | _ => exact nomatch h

/-- **ROWS THAT ARE ALIKE** are described alike, whatever the lines. -/
theorem ReadsAlike.describe_eq {store : Store} {path : String} {doc : Document}
    (hdoc : Document.load store path = .ok doc) {row : TextRow} {kind name definition : Value}
    (h : ReadsAlike doc row kind name definition) (hkind : IsReading row.kind kind)
    (hknown : row.kind ∈ fieldKinds → kind = .text row.kind) (hname : IsReading row.name name)
    (hdefinition : IsReading row.definition definition) {texts readings : Row}
    (htexts : HasCells texts (.text row.kind) (.text row.name) (.text row.definition))
    (hreadings : HasCells readings kind name definition) (lines : List Line) :
    describe doc lines readings = describe doc lines texts := by
  rw [htexts.describe_eq, hreadings.describe_eq]
  rw [ReadsAlike] at h
  cases hfound : findDescription doc (.text row.kind) (.text row.name) with
  | error fault =>
      rw [hfound] at h
      have herror : findDescription doc kind name = .error fault := by
        refine findDescription_of_error hdoc hkind hknown hname hfound ?_ ?_
        · rintro k rfl
          exact h
        · rintro k n rfl
          exact h
      rw [herror]
      rfl
  | ok found =>
      rw [hfound] at h
      obtain ⟨rfl, hdefined⟩ := h
      obtain ⟨_, hlocated, _⟩ := (findDescription_eq_ok_iff _ _ _ _).mp hfound
      obtain ⟨_, key, _, _, _, hkey, hfieldKind, _⟩ := hlocated.found
      cases hkey
      obtain rfl := hknown hfieldKind
      rw [hfound]
      simp only [bind, Except.bind]
      cases hcount : lineCount found.1 with
      | error fault => rfl
      | ok count =>
          dsimp only
          rcases hdefinition with rfl | hscalar
          · rfl
          -- A scalar is never the current description, so the text must not be it either.
          obtain ⟨old, hold⟩ := eq_text_of_lineCount hcount
          have hother : isCurrent found.1 definition = false := by
            rw [isCurrent, hold]
            exact (Textual.text old).beq_scalar hscalar
          cases hcurrent : isCurrent found.1 (.text row.definition) with
          | true =>
              rw [hcurrent, if_pos rfl] at hdefined
              rw [hdefined] at hscalar
              exact hscalar.elim
          | false =>
              rw [hcurrent, if_neg Bool.false_ne_true] at hdefined
              rw [hother, hdefined]
              rfl

/-! ## Walks through rows -/

/-- Rows that are described alike, one by one, leave the same lines or the same fault. -/
theorem foldlM_describe_congr {doc : Document} {first second : List Row}
    (h : List.Forall₂ (fun row other => ∀ lines, describe doc lines row = describe doc lines other)
      first second) :
    ∀ lines : List Line,
      first.foldlM (describe doc) lines = second.foldlM (describe doc) lines := by
  induction h with
  | nil => intro lines; rfl
  | cons hrow _ ih =>
      intro lines
      rw [List.foldlM_cons, List.foldlM_cons, hrow]
      simp only [ih]

/-- A row that is described makes a request. -/
theorem exists_requests_of_describe {doc : Document} {lines after : List Line} {row : Row}
    (h : describe doc lines row = .ok after) : ∃ request, Requests doc row request := by
  obtain ⟨kind, hkind, h⟩ := bind_eq_ok.mp h
  obtain ⟨name, hname, h⟩ := bind_eq_ok.mp h
  obtain ⟨found, hfound, h⟩ := bind_eq_ok.mp h
  obtain ⟨count, hcount, h⟩ := bind_eq_ok.mp h
  obtain ⟨definition, hdefinition, _⟩ := bind_eq_ok.mp h
  obtain ⟨field, hlocated, rfl⟩ := (findDescription_eq_ok_iff _ _ _ _).mp hfound
  obtain ⟨_, key, _, _, _, rfl, _⟩ := hlocated.found
  obtain ⟨old, hold⟩ := eq_text_of_lineCount hcount
  exact ⟨⟨key, name, definition, old, (answer field).2⟩, hkind, hname, hdefinition, field,
    hlocated, Prod.ext hold rfl⟩

/-- **A WALK THAT ENDS WELL** has met a request in every row. -/
theorem exists_requests_of_foldlM {doc : Document} {rows : List Row} :
    ∀ {lines after : List Line}, rows.foldlM (describe doc) lines = .ok after →
      ∀ row ∈ rows, ∃ request, Requests doc row request := by
  induction rows with
  | nil => exact fun _ row hrow => nomatch hrow
  | cons first rest ih =>
      intro lines after h row hrow
      rw [List.foldlM_cons] at h
      obtain ⟨middle, hfirst, hrest⟩ := bind_eq_ok.mp h
      rcases List.mem_cons.mp hrow with rfl | hrow
      · exact exists_requests_of_describe hfirst
      · exact ih hrest row hrow

/-- A row with a scalar for a name makes no request. -/
theorem not_requests_of_scalar {store : Store} {path : String} {doc : Document}
    (hdoc : Document.load store path = .ok doc) {row : Row} {scalar : Value}
    (hname : cell row "name" = .ok scalar) (hscalar : scalar.IsScalar) (request : Request) :
    ¬ Requests doc row request := by
  intro h
  cases hname.symm.trans h.name
  obtain ⟨field, hlocated, _⟩ := h.field
  obtain ⟨view, key, before, after, hviews, _, _, hfields, _, title, htitle, hsame⟩ :=
    hlocated.found
  have htextual : doc.views.Textual := textual_views hdoc (by rw [hviews]; exact id)
  rw [hviews] at htextual
  have hview : (Value.record view).Textual := htextual.nth_zero rfl
  cases hview with
  | record hentries =>
      have hfield : (Value.record field).Textual :=
        (hentries _ _ hfields).elements rfl _ (List.mem_append_right before List.mem_cons_self)
      have hother := (hfield.lookup htitle).beq_scalar hscalar
      exact Bool.false_ne_true (hother.symm.trans hsame)

end Update
end LookmlProject
