import LookmlProject.Proofs.RoundTrip

/-! # Updates that write once or not at all

    An update goes through its rows on lines of its own, and writes a file after
    the last row.  `Located` says when the field of a row is found, `Refused` for
    what reasons an update stops, and `Requests` what a row asks for.  The route:

    * work that only computes leaves the journal as it is, and so does a whole walk
      through rows (`Work.foldlM_lift`); so an update comes to a plain result
      (`amend_comesTo`, `perform_comesTo`);
    * a description is found exactly if its field is located
      (`findDescription_eq_ok_iff`), so a walk through rows stops at one whose field is
      not, and otherwise makes the edits of all rows (`foldlM_describe_of_lost`,
      `foldlM_describe_of_requests`);
    * a writing changes one file (`Store.Wrote`). -/

namespace LookmlProject

/-! ## Work without writing -/

namespace Work

theorem lift_bind {α β : Type} (result : Except Fault α) (next : α → Except Fault β) :
    lift (result >>= next) = lift result >>= fun a => lift (next a) := by
  cases result with
  | error fault => rfl
  | ok a => rfl

/-- **A WALK** that only computes is a plain result: no step of it touches the journal. -/
theorem foldlM_lift {α β : Type} (step : β → α → Except Fault β) (items : List α) :
    ∀ start : β, items.foldlM (fun b a => lift (step b a)) start =
      lift (items.foldlM step start) := by
  induction items with
  | nil => intro start; rfl
  | cons item rest ih =>
      intro start
      rw [List.foldlM_cons, List.foldlM_cons, lift_bind]
      simp only [ih]

/-- Work on a journal comes to a result: to its fault, with the journal as it was, or to its
journal. -/
def ComesTo (work : Work Unit) (journal : Journal) (result : Except Fault Journal) : Prop :=
  work.run journal =
    match result with
    | .error fault => .error fault journal
    | .ok after => .ok () after

theorem comesTo_write (path text : String) (journal : Journal) :
    ComesTo (write path text) journal (journal.write path text) := by
  show (EStateM.bind (lift (journal.write path text)) set) journal = _
  cases journal.write path text with
  | error fault => rfl
  | ok after => rfl

/-- Computing before work that comes to a result. -/
theorem comesTo_lift_bind {α : Type} {result : Except Fault α} {work : α → Work Unit}
    {journal : Journal} {next : α → Except Fault Journal}
    (h : ∀ a, ComesTo (work a) journal (next a)) :
    ComesTo (lift result >>= work) journal (result >>= next) := by
  cases result with
  | error fault => rfl
  | ok a => exact h a

theorem comesTo_look_bind {α : Type} {reading : Store → Except Fault α} {work : α → Work Unit}
    {journal : Journal} {next : α → Except Fault Journal}
    (h : ∀ a, ComesTo (work a) journal (next a)) :
    ComesTo (look reading >>= work) journal (reading journal.store >>= next) := by
  have hlift : ComesTo (lift (reading journal.store) >>= work) journal
      (reading journal.store >>= next) := comesTo_lift_bind h
  exact hlift

/-- Work that stops has left the journal as it was. -/
theorem ComesTo.eq_of_error {work : Work Unit} {journal after : Journal}
    {result : Except Fault Journal} (h : ComesTo work journal result) {fault : Fault}
    (herror : work.run journal = .error fault after) : after = journal := by
  cases result with
  | error fault' => cases herror.symm.trans h; rfl
  | ok store => exact nomatch herror.symm.trans h

/-- Work ends well exactly if its result is no fault. -/
theorem ComesTo.exists_ok_iff {work : Work Unit} {journal : Journal}
    {result : Except Fault Journal} (h : ComesTo work journal result) :
    (∃ after, work.run journal = .ok () after) ↔ ∃ after, result = .ok after := by
  cases result with
  | error fault =>
      refine iff_of_false ?_ nofun
      rintro ⟨after, hafter⟩
      exact nomatch hafter.symm.trans h
  | ok after => exact iff_of_true ⟨after, h⟩ ⟨after, rfl⟩

end Work

namespace Update

open Lookml Edit Value

/-- **STEP BY STEP** an update comes to the journal in which its lines are written. -/
theorem amend_comesTo (settings : Value) (definitions : Definitions.Yield) (infile outfile : Value)
    (journal : Journal) :
    Work.ComesTo (amend settings definitions infile outfile) journal
      (updated settings definitions journal.store infile >>= fun lines =>
        outfile.asTarget >>= fun target => journal.write target (join lines)) := by
  rw [amend, updated]
  simp only [Work.foldlM_lift, bind_assoc]
  refine Work.comesTo_lift_bind fun path => ?_
  refine Work.comesTo_look_bind fun lines => Work.comesTo_look_bind fun doc => ?_
  refine Work.comesTo_lift_bind fun file => Work.comesTo_lift_bind fun rows => ?_
  refine Work.comesTo_lift_bind fun after => Work.comesTo_lift_bind fun target => ?_
  exact Work.comesTo_write target (join after) journal

/-- **PERFORMED** step by step, an update comes to a journal with the store of its run. -/
theorem perform_comesTo (settings : Value) (database : Option Definitions.Database)
    (infile outfile : Value) (journal : Journal) :
    ∃ result, Work.ComesTo (perform settings database infile outfile) journal result ∧
      Journal.store <$> result = run settings journal.store database infile outfile := by
  refine ⟨_, Work.comesTo_look_bind fun definitions =>
    amend_comesTo settings definitions infile outfile journal, ?_⟩
  simp only [run, Journal.write, map_bind, map_pure, bind_pure]

/-! ## Fields that are found -/

/-- A value is a field with another name. -/
def NamedOther (name field : Value) : Prop :=
  ∃ title, field.lookup "name" = .ok title ∧ (title == name) = false

/-- A value is a field with the name. -/
def NamedSo (name field : Value) : Prop :=
  ∃ title, field.lookup "name" = .ok title ∧ (title == name) = true

/-- The first field with a name is found if all values before it are fields with other names. -/
theorem fieldNamed_eq_some_iff (name field : Value) (fields : List Value) :
    fieldNamed name fields = .ok (some field) ↔ ∃ before after,
      fields = before ++ field :: after ∧ (∀ other ∈ before, NamedOther name other) ∧
        NamedSo name field := by
  induction fields with
  | nil => simp [fieldNamed]
  | cons first rest ih =>
      rw [fieldNamed, bind_eq_ok]
      constructor
      · rintro ⟨title, htitle, h⟩
        cases hsame : title == name with
        | true =>
            rw [hsame, if_pos rfl] at h
            cases h
            exact ⟨[], rest, rfl, by simp, title, htitle, hsame⟩
        | false =>
            rw [hsame, if_neg Bool.false_ne_true] at h
            obtain ⟨before, after, rfl, hbefore, hnamed⟩ := ih.mp h
            exact ⟨first :: before, after, rfl,
              List.forall_mem_cons.mpr ⟨⟨title, htitle, hsame⟩, hbefore⟩, hnamed⟩
      · rintro ⟨before, after, hsplit, hbefore, hnamed⟩
        cases before with
        | nil =>
            obtain ⟨title, htitle, hsame⟩ := hnamed
            cases hsplit
            exact ⟨title, htitle, by rw [hsame, if_pos rfl]; rfl⟩
        | cons other before =>
            cases hsplit
            obtain ⟨⟨title, htitle, hsame⟩, hbefore⟩ := List.forall_mem_cons.mp hbefore
            refine ⟨title, htitle, ?_⟩
            rw [hsame, if_neg Bool.false_ne_true]
            exact ih.mpr ⟨before, after, rfl, hbefore, hnamed⟩

/-- A field is found in a document: the document is for views and has a single one, the kind is one
of those that have descriptions, and among the fields of that kind it is the first with the name. -/
structure Located (doc : Document) (kind name : Value) (field : Fields) : Prop where
  isView : doc.kind = .view
  found : ∃ (view : Fields) (key : String) (before after : List Value),
    doc.views = .list [.record view] ∧ kind = .text key ∧ key ∈ fieldKinds ∧
    Fields.get? view (key ++ "s") = some (.list (before ++ .record field :: after)) ∧
    (∀ other ∈ before, NamedOther name other) ∧ NamedSo name (.record field)

/-- Of the elements of a value that is no list, none is a field. -/
theorem eq_list_of_fieldNamed {v name field : Value} {fields : List Value}
    (h : v.elements = .ok fields) (hnamed : fieldNamed name fields = .ok (some field)) :
    v = .list fields := by
  obtain ⟨before, after, hsplit, _, title, htitle, _⟩ := (fieldNamed_eq_some_iff _ _ _).mp hnamed
  have hmem : field ∈ fields := by simp [hsplit]
  cases v with
  | list items => cases h; rfl
  | text s =>
      cases h
      obtain ⟨c, _, rfl⟩ := List.mem_map.mp hmem
      exact nomatch htitle
  | record entries =>
      cases h
      obtain ⟨entry, _, rfl⟩ := List.mem_map.mp hmem
      exact nomatch htitle
  | _ => exact nomatch h

/-- Only a record has something to be looked up. -/
theorem eq_record_of_lookup {v x : Value} {key : String} (h : v.lookup key = .ok x) :
    ∃ fields, v = .record fields ∧ Fields.get? fields key = some x := by
  cases v with
  | record fields =>
      rw [Value.lookup] at h
      split at h
      · next hget => cases h; exact ⟨fields, rfl, hget⟩
      · cases h
  | _ => cases h

theorem eq_text_of_isText {v : Value} {s : String} (h : v.isText s = true) : v = .text s := by
  cases v with
  | text t => rw [Value.isText, beq_iff_eq] at h; rw [h]
  | _ => cases h

/-- A single element that is a record is that of a list. -/
theorem eq_singleton_of_nth {v : Value} {count : Nat} {fields : Fields}
    (hcount : v.length = .ok count) (hsingle : ¬ 1 < count)
    (hnth : v.nth 0 = .ok (.record fields)) : v = .list [.record fields] := by
  cases v with
  | list items =>
      cases hcount
      match items, hnth with
      | [], hnth => exact nomatch hnth
      | [item], hnth => cases hnth; rfl
      | _ :: _ :: _, _ => exact absurd (by simp) hsingle
  | text s =>
      rw [Value.nth] at hnth
      cases htext : s.toList with
      | nil => rw [htext] at hnth; exact nomatch hnth
      | cons c rest => rw [htext] at hnth; exact nomatch hnth
  | _ => exact nomatch hnth

/-- **A DESCRIPTION IS FOUND** exactly if its field is located. -/
theorem findDescription_eq_ok_iff (doc : Document) (kind name : Value) (found : Value × Bool) :
    findDescription doc kind name = .ok found ↔
      ∃ field, Located doc kind name field ∧ found = answer field := by
  constructor
  · intro h
    rw [findDescription] at h
    split at h
    · cases h
    next hview =>
    obtain ⟨count, hcount, h⟩ := bind_eq_ok.mp h
    dsimp only at h
    split at h
    · cases h
    next hsingle =>
    obtain ⟨view, hnth, h⟩ := bind_eq_ok.mp h
    split at h
    swap
    · cases h
    next hkind =>
    obtain ⟨has, _, h⟩ := bind_eq_ok.mp h
    split at h
    swap
    · cases h
    obtain ⟨listed, hlisted, h⟩ := bind_eq_ok.mp h
    obtain ⟨fields, hfields, h⟩ := bind_eq_ok.mp h
    obtain ⟨field?, hfield, hanswer⟩ := bind_eq_ok.mp h
    cases field? with
    | none => cases hanswer
    | some field =>
        -- A field with a name is a record, so it came from a list, in a view that is a record.
        obtain rfl := eq_list_of_fieldNamed hfields hfield
        obtain ⟨before, after, rfl, hbefore, hnamed⟩ := (fieldNamed_eq_some_iff _ _ _).mp hfield
        obtain ⟨_, htitle, _⟩ := id hnamed
        obtain ⟨entries, rfl, _⟩ := eq_record_of_lookup htitle
        obtain ⟨viewFields, rfl, hget⟩ := eq_record_of_lookup hlisted
        obtain ⟨key, hkey, hkind⟩ := List.any_eq_true.mp hkind
        obtain rfl := eq_text_of_isText hkind
        refine ⟨entries, ⟨not_not.mp hview, viewFields, key, before, after,
          eq_singleton_of_nth hcount hsingle hnth, rfl, hkey, hget, hbefore, hnamed⟩, ?_⟩
        rw [answer]
        change (if (Fields.get? entries "description").isSome = true then _ else _) = _ at hanswer
        cases hdescription : Fields.get? entries "description" with
        | none => rw [hdescription] at hanswer; cases hanswer; rfl
        | some description =>
            rw [hdescription, Option.isSome_some, if_pos rfl, Value.lookup, hdescription] at hanswer
            cases hanswer
            rfl
  · rintro ⟨field, ⟨hview, view, key, before, after, hviews, rfl, hkey, hfields, hbefore, hnamed⟩,
      rfl⟩
    have hfield : fieldNamed name (before ++ .record field :: after) = .ok (some (.record field)) :=
      (fieldNamed_eq_some_iff _ _ _).mpr ⟨before, after, rfl, hbefore, hnamed⟩
    have hknown : fieldKinds.any ((Value.text key).isText ·) = true :=
      List.any_eq_true.mpr ⟨key, hkey, by simp [Value.isText]⟩
    have hcount : doc.views.length = .ok 1 := by rw [hviews]; rfl
    have hnth : doc.views.nth 0 = .ok (.record view) := by rw [hviews]; rfl
    simp only [findDescription, hview, hcount, hnth, hknown, bind, Except.bind, pure, Except.pure,
      Value.display, Value.has, Value.holds, Fields.has, Value.lookup, hfields, Value.elements,
      hfield, answer]
    cases Fields.get? field "description" <;> rfl

/-! ## Rows of definitions -/

/-- A table of definitions: it has the four columns, its rows have a cell for each column, and each
row has a label or none has. -/
structure IsDefinitions (table : Table) : Prop where
  columns : ∀ column ∈ Definitions.columns, column ∈ table.columns
  rows : ∀ cells ∈ table.rows, cells.length = table.columns.length
  labels : table.labels = [] ∨ table.labels.length = table.rows.length

/-- No two rows of a table have equal labels. -/
def DistinctLabels (table : Table) : Prop :=
  table.labels.Pairwise fun first second => (first == second) = false

/-- A row of cells with the names of their columns. -/
def rowOf (table : Table) (cells : List Value) : Row := table.columns.zip cells

/-- Whether a row of cells is about a file. -/
def isAbout (table : Table) (file : String) (cells : List Value) : Bool :=
  match cell (rowOf table cells) "file" with
  | .ok v => v.isText file
  | .error _ => false

/-- The cell of a row in a column. -/
theorem cell_zip {column : String} (columns : List String) :
    ∀ (cells : List Value) (place : Nat), cells.length = columns.length →
      columns.idxOf? column = some place →
      cell (columns.zip cells) column = .ok (cells.getD place .null) := by
  induction columns with
  | nil => intro cells place _ hplace; simp at hplace
  | cons first rest ih =>
      intro cells place hlength hplace
      cases cells with
      | nil => exact nomatch hlength
      | cons v cells =>
          have hlength' : cells.length = rest.length := Nat.succ.inj hlength
          rw [List.idxOf?_cons] at hplace
          rw [List.zip_cons_cons, cell, Value.lookup, Fields.get?]
          by_cases hfirst : first = column
          · rw [if_pos (beq_iff_eq.mpr hfirst)] at hplace
            cases hplace
            rw [if_pos hfirst]
            rfl
          · rw [if_neg (mt beq_iff_eq.mp hfirst)] at hplace
            obtain ⟨place', hplace', rfl⟩ := Option.map_eq_some_iff.mp hplace
            rw [if_neg hfirst]
            exact ih cells place' hlength' hplace'

/-- The cells of a row of definitions: one for each column, and what is looked up is at the place of
the column. -/
theorem IsDefinitions.cell_eq {table : Table} (h : IsDefinitions table) (column : String)
    (hcolumn : column ∈ Definitions.columns) :
    ∃ place, table.column? column = some place ∧ ∀ cells ∈ table.rows,
      cell (rowOf table cells) column = .ok (cells.getD place .null) := by
  have hmem := h.columns column hcolumn
  obtain ⟨place, hplace⟩ := Option.isSome_iff_exists.mp (List.isSome_idxOf?.mpr hmem)
  exact ⟨place, hplace, fun cells hcells => cell_zip _ cells place (h.rows cells hcells) hplace⟩

/-- At the place of the column of files, a row of definitions tells whether it is about a file. -/
theorem IsDefinitions.isText_eq_isAbout {table : Table} (h : IsDefinitions table) (file : String) :
    ∃ place, table.column? "file" = some place ∧ ∀ cells ∈ table.rows,
      (cells.getD place .null).isText file = isAbout table file cells := by
  obtain ⟨place, hplace, hcell⟩ := h.cell_eq "file" (by decide)
  refine ⟨place, hplace, fun cells hcells => ?_⟩
  rw [isAbout, hcell cells hcells]

/-- What is found for a file in a table are rows of the table that are about the file. -/
theorem exists_of_mem_rowsAbout {table : Table} (h : IsDefinitions table) {file : String}
    {rows : List Row} (hrows : rowsAbout table file = .ok rows) {row : Row} (hrow : row ∈ rows) :
    ∃ cells ∈ table.rows, isAbout table file cells = true ∧ row = rowOf table cells := by
  obtain ⟨place, hplace, habout⟩ := h.isText_eq_isAbout file
  rw [rowsAbout, hplace] at hrows
  cases hrows
  obtain ⟨cells, hcells, rfl⟩ := List.mem_map.mp hrow
  suffices hfound : cells ∈ table.rows ∧ (cells.getD place .null).isText file = true by
    exact ⟨cells, hfound.1, (habout cells hfound.1).symm.trans hfound.2, rfl⟩
  -- Without labels the rows are kept as they are; with labels, the last row of each label.
  split at hcells
  · exact List.mem_filter.mp hcells
  · obtain ⟨e, he, rfl⟩ := List.mem_map.mp hcells
    rcases Keyed.snd_of_mem_foldl_set _ [] e he with hnil | ⟨entry, hentry, hvalue⟩
    · exact nomatch hnil
    · obtain ⟨hzip, htext⟩ := List.mem_filter.mp hentry
      rw [hvalue]
      exact ⟨(List.of_mem_zip hzip).2, htext⟩

/-- The rows of a table that are about a file.  If no two labels are equal, they are all there, in
their order. -/
theorem rowsAbout_eq {table : Table} (h : IsDefinitions table) (file : String) :
    ∃ rows, rowsAbout table file = .ok rows ∧
      (∀ row ∈ rows, ∃ cells ∈ table.rows, row = rowOf table cells) ∧
      (DistinctLabels table →
        rows = (table.rows.filter (isAbout table file)).map (rowOf table)) := by
  obtain ⟨place, hplace, habout⟩ := h.isText_eq_isAbout file
  have hsome : ∃ rows, rowsAbout table file = .ok rows := by
    rw [rowsAbout, hplace]
    exact ⟨_, rfl⟩
  obtain ⟨rows, hrows⟩ := hsome
  refine ⟨rows, hrows, fun row hrow => ?_, fun hdistinct => ?_⟩
  · obtain ⟨cells, hcells, _, hrow⟩ := exists_of_mem_rowsAbout h hrows hrow
    exact ⟨cells, hcells, hrow⟩
  rw [rowsAbout, hplace] at hrows
  cases hrows
  cases hlabels : table.labels.isEmpty with
  | true =>
      rw [if_pos rfl, List.filter_congr habout]
      rfl
  | false =>
      rw [if_neg Bool.false_ne_true]
      dsimp only
      have hlength : table.labels.length = table.rows.length :=
        h.labels.resolve_left fun hnil => by simp [hnil] at hlabels
      rw [DistinctLabels, ← List.map_fst_zip hlength.le] at hdistinct
      have hpairs : Keyed.Distinct (table.labels.zip table.rows) := List.pairwise_map.mp hdistinct
      have hpaired : (table.labels.zip table.rows).map Prod.snd = table.rows :=
        List.map_snd_zip hlength.ge
      -- Distinct labels replace nothing, so the rows stay in their order.
      rw [Keyed.foldl_set _ [] (List.Pairwise.filter _ hpairs), List.nil_append,
        ← List.filter_congr habout]
      conv_rhs => rw [← hpaired, List.filter_map]
      rfl

/-! ## What rows ask for -/

/-- An order to describe a field: its kind and name, the new description, the text of the old one,
and whether there is an old one. -/
structure Request where
  kind : String
  name : Value
  definition : Value
  old : String
  present : Bool

/-- The edit for a request. -/
def Request.call (request : Request) : Call :=
  ⟨(Text.splitChar '\n' request.old.toList).length, request.kind.toList,
    request.name.display.toList, request.definition.display.toList, request.present⟩

/-- The lines after a request: edited, unless the description is the new one already. -/
def Request.run (lines : List Line) (request : Request) : List Line :=
  if isCurrent (.text request.old) request.definition then lines else request.call.run lines

/-- A row makes a request of a document: its field is located there, and has a text as its
description or none. -/
structure Requests (doc : Document) (row : Row) (request : Request) : Prop where
  kind : cell row "type" = .ok (.text request.kind)
  name : cell row "name" = .ok request.name
  definition : cell row "definition" = .ok request.definition
  field : ∃ field, Located doc (.text request.kind) request.name field ∧
    answer field = (.text request.old, request.present)

/-- A row that makes a request is described by its edit. -/
theorem Requests.describe_eq {doc : Document} {row : Row} {request : Request}
    (h : Requests doc row request) (lines : List Line) :
    describe doc lines row = .ok (request.run lines) := by
  obtain ⟨field, hlocated, hanswer⟩ := h.field
  have hfound := (findDescription_eq_ok_iff doc _ _ _).mpr ⟨field, hlocated, rfl⟩
  rw [describe, h.kind]
  simp only [bind, Except.bind, h.name, hfound, hanswer, lineCount, h.definition]
  rw [Request.run]
  split <;> rfl

/-- **A WALK THROUGH ROWS** that make requests makes their edits, one after the other. -/
theorem foldlM_describe_of_requests {doc : Document} {rows : List Row} {requests : List Request}
    (h : List.Forall₂ (Requests doc) rows requests) :
    ∀ lines : List Line,
      rows.foldlM (describe doc) lines = .ok (requests.foldl Request.run lines) := by
  induction h with
  | nil => intro lines; rfl
  | cons hrow _ ih =>
      intro lines
      rw [List.foldlM_cons, hrow.describe_eq]
      exact ih _

/-- **A WALK THROUGH ROWS** stops at a row whose field is not located, whatever edits were made on
the lines before. -/
theorem foldlM_describe_of_lost {doc : Document} {row : Row} {kind name : Value}
    (hkind : cell row "type" = .ok kind) (hname : cell row "name" = .ok name)
    (hlost : ∀ field, ¬ Located doc kind name field) {rows : List Row} (hrow : row ∈ rows) :
    ∀ lines : List Line, ∃ fault, rows.foldlM (describe doc) lines = .error fault := by
  induction rows with
  | nil => exact nomatch hrow
  | cons first rest ih =>
      intro lines
      rw [List.foldlM_cons]
      cases hfirst : describe doc lines first with
      | error fault => exact ⟨fault, rfl⟩
      | ok lines' =>
          -- The walk has come past the first row, so that was not the lost one.
          rcases List.mem_cons.mp hrow with rfl | hrest
          · obtain ⟨kind', hkind', hrest⟩ := bind_eq_ok.mp hfirst
            obtain ⟨name', hname', hrest⟩ := bind_eq_ok.mp hrest
            obtain ⟨found, hfound, _⟩ := bind_eq_ok.mp hrest
            cases hkind.symm.trans hkind'
            cases hname.symm.trans hname'
            obtain ⟨field, hlocated, _⟩ := (findDescription_eq_ok_iff _ _ _ _).mp hfound
            exact absurd hlocated (hlost field)
          · exact ih hrest lines'

/-! ## All or nothing -/

/-- Why an update is refused: there is no file; its name does not end in `.lkml`; it has no text
that can be read as a document; or the field of some row is not located in the document. -/
inductive Refused (store : Store) (path : String) (rows : List Row) : Prop where
  | missing : store.contains path = false → Refused store path rows
  | misnamed : ¬ ".lkml".toList <:+ (Store.baseName path).toList → Refused store path rows
  | unreadable : (∀ text body, store.read path = .ok text →
      Lookml.load (Text.unifyNewlines text.toList) ≠ .ok body) → Refused store path rows
  | lost {doc : Document} {row : Row} {kind name : Value} : Document.load store path = .ok doc →
      row ∈ rows → cell row "type" = .ok kind → cell row "name" = .ok name →
      (∀ field, ¬ Located doc kind name field) → Refused store path rows

/-- All descriptions that are found for rows are texts. -/
def AllTexts (store : Store) (path : String) (rows : List Row) : Prop :=
  ∀ doc, Document.load store path = .ok doc → ∀ row ∈ rows, ∀ kind name field,
    cell row "type" = .ok kind → cell row "name" = .ok name → Located doc kind name field →
    ∃ old, (answer field).1 = .text old

/-- A file that is not refused is read as a document. -/
theorem load_of_not_refused {store : Store} {path : String} {rows : List Row}
    (h : ¬ Refused store path rows) :
    ∃ text doc, store.read path = .ok text ∧ Document.load store path = .ok doc := by
  have hname : ".lkml".toList <:+ (Store.baseName path).toList :=
    Classical.not_not.mp fun hname => h (.misnamed hname)
  obtain ⟨kind, hkind⟩ := Option.isSome_iff_exists.mp ((ofFileName?_isSome_iff _).mpr hname)
  -- A text that can be read as a document would make one, since the name says its kind.
  by_contra hnone
  refine h (.unreadable fun text body htext hbody => hnone ?_)
  obtain ⟨doc, hdoc, _⟩ := document_of_load htext hkind hbody
  exact ⟨text, doc, htext, hdoc⟩

/-- What is read as a document is a file with such a name and such a text. -/
theorem exists_of_load {store : Store} {path : String} {doc : Document}
    (h : Document.load store path = .ok doc) :
    store.contains path = true ∧ ".lkml".toList <:+ (Store.baseName path).toList ∧
      ∃ text, store.read path = .ok text ∧
        Lookml.load (Text.unifyNewlines text.toList) = .ok doc.body := by
  have hload := h
  rw [Document.load] at h
  split at h
  swap
  · cases h
  next hcontains =>
  dsimp only at h
  split at h
  · cases h
  next kind hkind =>
  split at h
  · cases h
  next text htext =>
  exact ⟨hcontains, (ofFileName?_isSome_iff _).mp (by rw [hkind]; rfl), text, htext,
    load_of_document htext hload⟩

/-- The lines of an update are those of the file after a walk through the rows about it. -/
theorem updated_eq {settings : Value} {table : Table} {store : Store} {path file : String}
    {rows : List Row} (hfile : nameInTable settings path = .ok file)
    (hrows : rowsAbout table file = .ok rows) :
    updated settings (.table table) store (.text path) =
      readLines store path >>= fun lines => Document.load store path >>= fun doc =>
        rows.foldlM (describe doc) lines := by
  show (readLines store path >>= fun lines => Document.load store path >>= fun doc =>
    nameInTable settings path >>= fun file => rowsAbout table file >>= fun rows =>
      rows.foldlM (describe doc) lines) = _
  rw [hfile]
  show (readLines store path >>= fun lines => Document.load store path >>= fun doc =>
    rowsAbout table file >>= fun rows => rows.foldlM (describe doc) lines) = _
  rw [hrows]
  rfl

/-- A refused update has no lines. -/
theorem updated_of_refused {settings : Value} {table : Table} {store : Store} {path file : String}
    {rows : List Row} (hfile : nameInTable settings path = .ok file)
    (hrows : rowsAbout table file = .ok rows) (h : Refused store path rows) :
    ∃ fault, updated settings (.table table) store (.text path) = .error fault := by
  have hlines : ∀ lines, updated settings (.table table) store (.text path) ≠ .ok lines := by
    intro lines hupdated
    rw [updated_eq hfile hrows] at hupdated
    obtain ⟨start, _, hupdated⟩ := bind_eq_ok.mp hupdated
    obtain ⟨doc, hdoc, hfold⟩ := bind_eq_ok.mp hupdated
    obtain ⟨hcontains, hends, text, htext, hbody⟩ := exists_of_load hdoc
    cases h with
    | missing hmissing => exact Bool.false_ne_true (hmissing.symm.trans hcontains)
    | misnamed hname => exact hname hends
    | unreadable hnone => exact hnone text doc.body htext hbody
    | lost hdoc' hrow hkind hname hlost =>
        cases hdoc.symm.trans hdoc'
        obtain ⟨fault, hfault⟩ := foldlM_describe_of_lost hkind hname hlost hrow start
        exact nomatch hfault.symm.trans hfold
  cases hupdated : updated settings (.table table) store (.text path) with
  | error fault => exact ⟨fault, rfl⟩
  | ok lines => exact absurd hupdated (hlines lines)

/-- The name of a file in a table is its path or its base name. -/
theorem exists_nameInTable (settings : Fields) (path : String) :
    ∃ file, nameInTable (.record settings) path = .ok file := by
  rw [nameInTable, Value.has, Value.holds, Fields.has, Value.lookup]
  cases Fields.get? settings "use_basename" with
  | none => exact ⟨path, rfl⟩
  | some v =>
      cases htruthy : v.truthy with
      | true => exact ⟨Store.baseName path, by simp [bind, Except.bind, htruthy]; rfl⟩
      | false => exact ⟨path, by simp [bind, Except.bind, htruthy]; rfl⟩

/-- A row of an update that is not refused makes a request. -/
theorem exists_request {table : Table} (htable : IsDefinitions table) {store : Store}
    {path : String} {rows : List Row} {doc : Document}
    (hdoc : Document.load store path = .ok doc) (h : ¬ Refused store path rows)
    (htexts : AllTexts store path rows) {cells : List Value} (hcells : cells ∈ table.rows)
    (hrow : rowOf table cells ∈ rows) : ∃ request, Requests doc (rowOf table cells) request := by
  have hcell : ∀ column ∈ Definitions.columns, ∃ v, cell (rowOf table cells) column = .ok v := by
    intro column hcolumn
    obtain ⟨place, _, hplace⟩ := htable.cell_eq column hcolumn
    exact ⟨_, hplace cells hcells⟩
  obtain ⟨kind, hkind⟩ := hcell "type" (by decide)
  obtain ⟨name, hname⟩ := hcell "name" (by decide)
  obtain ⟨definition, hdefinition⟩ := hcell "definition" (by decide)
  obtain ⟨field, hlocated⟩ : ∃ field, Located doc kind name field := by
    by_contra hlost
    exact h (.lost hdoc hrow hkind hname (not_exists.mp hlost))
  obtain ⟨old, hold⟩ := htexts doc hdoc _ hrow kind name field hkind hname hlocated
  obtain ⟨_, key, _, _, _, rfl, _⟩ := hlocated.found
  exact ⟨⟨key, name, definition, old, (answer field).2⟩, hkind, hname, hdefinition, field,
    hlocated, Prod.ext hold rfl⟩

theorem exists_forall₂ {α β : Type} {rel : α → β → Prop} {items : List α}
    (h : ∀ a ∈ items, ∃ b, rel a b) : ∃ results, List.Forall₂ rel items results := by
  induction items with
  | nil => exact ⟨[], .nil⟩
  | cons a rest ih =>
      obtain ⟨b, hb⟩ := h a List.mem_cons_self
      obtain ⟨results, hresults⟩ := ih fun a ha => h a (List.mem_cons_of_mem _ ha)
      exact ⟨b :: results, .cons hb hresults⟩

/-- **ALL OR NOTHING**: an update of a file from any table of definitions goes through the rows that
are about the file; these are all such rows of the table, unless labels repeat.  If it is refused,
the journal stays as it was: nothing is written, also where earlier rows were applied, and every
file has the text that it had.  If it is not refused, all old descriptions are texts and the output
can be written, then each row makes a request, the output is written once, with the lines after all
requests, and no other file changes.  Whatever else stops an update, nothing is written. -/
theorem amend_all_or_nothing (settings : Fields) {table : Table} (htable : IsDefinitions table)
    (journal : Journal) (path out : String) :
    ∃ file rows, nameInTable (.record settings) path = .ok file ∧
      rowsAbout table file = .ok rows ∧
      (DistinctLabels table →
        rows = (table.rows.filter (isAbout table file)).map (rowOf table)) ∧
      (Refused journal.store path rows → ∃ fault,
        (amend (.record settings) (.table table) (.text path) (.text out)).run journal =
          .error fault journal) ∧
      (¬ Refused journal.store path rows → AllTexts journal.store path rows →
        (journal.store.target out).isWritable = true →
        ∃ text doc requests written after, journal.store.read path = .ok text ∧
          Document.load journal.store path = .ok doc ∧
          List.Forall₂ (Requests doc) rows requests ∧
          written = join (requests.foldl Request.run
            (Text.lines (Text.unifyNewlines text.toList))) ∧
          (amend (.record settings) (.table table) (.text path) (.text out)).run journal =
            .ok () ⟨after, journal.writings ++ [(out, written)]⟩ ∧
          Store.Wrote journal.store out written after) ∧
      (∀ fault after,
        (amend (.record settings) (.table table) (.text path) (.text out)).run journal =
          .error fault after → after = journal) := by
  obtain ⟨file, hfile⟩ := exists_nameInTable settings path
  obtain ⟨rows, hrows, hcells, hall⟩ := rowsAbout_eq htable file
  have hcomes := amend_comesTo (.record settings) (.table table) (.text path) (.text out) journal
  refine ⟨file, rows, hfile, hrows, hall, ?_, ?_, fun _ _ => hcomes.eq_of_error⟩
  · intro hrefused
    obtain ⟨fault, hfault⟩ := updated_of_refused hfile hrows hrefused
    rw [hfault] at hcomes
    exact ⟨fault, hcomes⟩
  · intro hrefused htexts hwritable
    obtain ⟨text, doc, htext, hdoc⟩ := load_of_not_refused hrefused
    obtain ⟨requests, hrequests⟩ := exists_forall₂ fun row hrow => by
      obtain ⟨cells, hmem, rfl⟩ := hcells row hrow
      exact exists_request htable hdoc hrefused htexts hmem hrow
    have hupdated : updated (.record settings) (.table table) journal.store (.text path) =
        .ok (requests.foldl Request.run (Text.lines (Text.unifyNewlines text.toList))) := by
      rw [updated_eq hfile hrows, readLines_eq htext, hdoc]
      exact foldlM_describe_of_requests hrequests _
    obtain ⟨after, hwrite, hwrote⟩ := Store.exists_wrote hwritable
      (join (requests.foldl Request.run (Text.lines (Text.unifyNewlines text.toList))))
    rw [hupdated] at hcomes
    change Work.ComesTo _ journal (journal.write out _) at hcomes
    rw [Journal.write, hwrite] at hcomes
    exact ⟨text, doc, requests, _, after, htext, hdoc, hrequests, rfl, hcomes, hwrote⟩

/-- A view with one dimension. -/
def lone : List Char := "view: v \x7b\n  dimension: a \x7b\n  \x7d\n\x7d\n".toList

/-- A journal of a store with this view, in which nothing is written yet. -/
def loneJournal : Journal := ⟨storeOf "v.view.lkml" lone, []⟩

/-- Definitions of the dimension and, behind it, of some fields more. -/
def loneTable (more : List Entry) : Table :=
  ⟨Definitions.columns, (databaseOf "v.view.lkml" (⟨"dimension", "a", "A"⟩ :: more)).rows, []⟩

theorem isDefinitions_loneTable (more : List Entry) : IsDefinitions (loneTable more) where
  columns := fun _ h => h
  rows := by
    intro cells hcells
    obtain ⟨entry, _, rfl⟩ := List.mem_map.mp hcells
    rfl
  labels := .inl rfl

/-- The row for the dimension. -/
def loneRow : Row := rowOf (loneTable []) (.text "v.view.lkml" :: ["dimension", "a", "A"].map .text)

/-- The dimension is there, without a description, and the measure is not. -/
theorem lone_fields :
    ∃ doc, Document.load loneJournal.store "v.view.lkml" = .ok doc ∧
      (∃ field, Located doc (.text "dimension") (.text "a") field) ∧
      (∀ field, Located doc (.text "dimension") (.text "a") field →
        (answer field).1 = .text "") ∧
      ∀ field, ¬ Located doc (.text "measure") (.text "b") field := by
  have hsummary : ((Document.load loneJournal.store "v.view.lkml").toOption.map fun doc =>
      ((findDescription doc (.text "dimension") (.text "a")).toOption.map fun found =>
          found.1.isText "",
        (findDescription doc (.text "measure") (.text "b")).toOption.isNone)) =
      some (some true, true) := by
    decide +kernel
  cases hdoc : Document.load loneJournal.store "v.view.lkml" with
  | error fault => rw [hdoc] at hsummary; exact nomatch hsummary
  | ok doc =>
      rw [hdoc] at hsummary
      obtain ⟨hdimension, hmeasure⟩ := Prod.mk.inj (Option.some.inj hsummary)
      refine ⟨doc, rfl, ?_, fun field hlocated => ?_, fun field hlocated => ?_⟩
      · cases hfound : findDescription doc (.text "dimension") (.text "a") with
        | error fault => rw [hfound] at hdimension; exact nomatch hdimension
        | ok found =>
            obtain ⟨field, hlocated, _⟩ := (findDescription_eq_ok_iff _ _ _ _).mp hfound
            exact ⟨field, hlocated⟩
      · rw [(findDescription_eq_ok_iff _ _ _ _).mpr ⟨field, hlocated, rfl⟩] at hdimension
        exact eq_text_of_isText (Option.some.inj hdimension)
      · rw [(findDescription_eq_ok_iff _ _ _ _).mpr ⟨field, hlocated, rfl⟩] at hmeasure
        exact nomatch hmeasure

/-- With a measure that is not there behind the dimension, nothing is written; with the dimension
alone the file is written once, in its own place. -/
theorem lone_all_or_nothing :
    (∃ fault, (amend (.record []) (.table (loneTable [⟨"measure", "b", "B"⟩]))
      (.text "v.view.lkml") (.text "v.view.lkml")).run loneJournal = .error fault loneJournal) ∧
    ∃ after written, (amend (.record []) (.table (loneTable [])) (.text "v.view.lkml")
        (.text "v.view.lkml")).run loneJournal = .ok () ⟨after, [("v.view.lkml", written)]⟩ ∧
      after.read "v.view.lkml" = .ok written := by
  obtain ⟨doc, hdoc, ⟨field, hlocated⟩, hold, hlost⟩ := lone_fields
  constructor
  · obtain ⟨file, rows, hfile, hrows, _, hrefused, _⟩ := amend_all_or_nothing []
      (isDefinitions_loneTable [⟨"measure", "b", "B"⟩]) loneJournal "v.view.lkml" "v.view.lkml"
    cases hfile
    cases hrows
    exact hrefused (.lost hdoc (List.mem_cons_of_mem _ List.mem_cons_self) rfl rfl hlost)
  · obtain ⟨file, rows, hfile, hrows, _, _, hwritten, _⟩ := amend_all_or_nothing []
      (isDefinitions_loneTable []) loneJournal "v.view.lkml" "v.view.lkml"
    cases hfile
    obtain rfl : rows = [loneRow] := Except.ok.inj (hrows.symm.trans rfl)
    have hopen : ¬ Refused loneJournal.store "v.view.lkml" [loneRow] := by
      intro hrefused
      obtain ⟨hcontains, hends, text, htext, hbody⟩ := exists_of_load hdoc
      cases hrefused with
      | missing hmissing => exact Bool.false_ne_true (hmissing.symm.trans hcontains)
      | misnamed hname => exact hname hends
      | unreadable hnone => exact hnone text doc.body htext hbody
      | lost hdoc' hrow hkind hname hlost =>
          cases hdoc.symm.trans hdoc'
          cases List.mem_singleton.mp hrow
          cases hkind
          cases hname
          exact hlost field hlocated
    have htexts : AllTexts loneJournal.store "v.view.lkml" [loneRow] := by
      intro doc' hdoc' row hrow kind name field hkind hname hlocated
      cases hdoc.symm.trans hdoc'
      cases List.mem_singleton.mp hrow
      cases hkind
      cases hname
      exact ⟨"", hold field hlocated⟩
    obtain ⟨_, _, _, written, after, _, _, _, _, hrun, hwrote⟩ := hwritten hopen htexts rfl
    exact ⟨after, written, hrun, (hwrote.inside ["v.view.lkml"] rfl).1⟩

end Update
end LookmlProject
