import LookmlProject.Proofs.CsvColumns
import LookmlProject.Proofs.CsvText
import LookmlProject.Proofs.Readings

/-! # One table from two sources

    A table of texts is kept in a CSV file or in a database.  The database gives the
    texts (`texts`); the file gives what its columns are read as (`readings`).  The
    route to what an update makes of either:

    * a file that is written as CSV is read cell by cell (`parse_fileText`), and a
      cell comes back as its text exactly if it survives (`reading_eq_iff`);
    * names of documents and kinds of fields always survive, since they have a letter
      that no number has (`survives_of_letter`), so that both sources give rows for a
      document in the same places (`rowsAbout_readings`);
    * rows that are alike are described alike, and the settings name the document
      alike, so that the updates are one and the same (`updated_of_alike`). -/

namespace LookmlProject.Update

open Lookml Edit Value

/-! ## Tables of texts -/

/-- The columns of rows of texts, in their order. -/
def TextRow.columns : List (TextRow → String) :=
  [TextRow.file, TextRow.kind, TextRow.name, TextRow.definition]

/-- The cells of a row. -/
def TextRow.cells (row : TextRow) : List String := TextRow.columns.map fun column => column row

/-- The records of a CSV file: a heading, and a record for each row. -/
def recordsOf (rows : List TextRow) : List Csv.Record :=
  Definitions.columns.map String.toList :: rows.map fun row => row.cells.map String.toList

section Tables

variable (rows : List TextRow) (column : TextRow → String)

/-- The cells of a column as they are read from a file. -/
def written : List (List Char) := rows.map fun row => Csv.untilNul (column row).toList

/-- What the cell of a column in some row is read as. -/
def reading (i : Nat) : Value := (Csv.column (written rows column)).getD i .null

/-- The table that is read from a CSV file. -/
def readings : Table where
  columns := Definitions.columns
  rows := (List.range rows.length).map fun i => TextRow.columns.map fun column =>
    reading rows column i

/-- The table that a database gives. -/
def texts : Table where
  columns := Definitions.columns
  rows := rows.map fun row => row.cells.map Value.text

/-- The cell of a row comes back from a CSV file: it has no NUL, and its column keeps it. -/
def Survives (row : TextRow) : Prop :=
  '\x00' ∉ (column row).toList ∧ Csv.Kept (written rows column) (column row).toList

end Tables

/-- No cell has a NUL, at which a field of a CSV file ends. -/
def WithoutNul (rows : List TextRow) : Prop :=
  ∀ row ∈ rows, ∀ column ∈ TextRow.columns, '\x00' ∉ (column row).toList

/-- Any table can be written as such a file, unless it has carriage returns. -/
theorem fileText_render {rows : List TextRow}
    (h : ∀ row ∈ rows, ∀ column ∈ TextRow.columns, '\r' ∉ (column row).toList) :
    Csv.FileText (recordsOf rows) (Csv.render (texts rows)).toList := by
  have htext : (Csv.render (texts rows)).toList = (recordsOf rows).flatMap Csv.line := by
    rw [Csv.render, String.toList_ofList, recordsOf, List.flatMap_cons, List.flatMap_map, texts,
      List.flatMap_map]
    rfl
  rw [htext]
  refine Csv.fileText_lines (List.forall_mem_cons.mpr ⟨by decide, fun cells hcells => ?_⟩)
  obtain ⟨row, hrow, rfl⟩ := List.mem_map.mp hcells
  refine ⟨(by decide : 2 ≤ 4), fun cell hcell => ?_⟩
  obtain ⟨s, hs, rfl⟩ := List.mem_map.mp hcell
  obtain ⟨column, hcolumn, rfl⟩ := List.mem_map.mp hs
  exact h row hrow column hcolumn

/-- **THE FILE IS READ** as its readings. -/
theorem parse_fileText {rows : List TextRow} {text : List Char}
    (h : Csv.FileText (recordsOf rows) text) : Csv.parse text = .ok (readings rows) := by
  have hlength : ∀ cells ∈ recordsOf rows, 2 ≤ cells.length := by
    refine List.forall_mem_cons.mpr ⟨by decide, fun cells hcells => ?_⟩
    obtain ⟨row, _, rfl⟩ := List.mem_map.mp hcells
    exact (by decide : 2 ≤ 4)
  -- The heading starts with a letter or a quotation mark, so no byte order mark is taken away.
  have hmark : ∀ c ∈ text.head?, c.toNat ≠ 0xFEFF := by
    intro c hc
    rcases Csv.FileText.head? h with hhead | hhead
    · cases hhead.symm.trans hc; decide
    · cases hhead.symm.trans hc; decide
  have hheading : Csv.columnNames ((Definitions.columns.map String.toList).map Csv.untilNul) =
      Definitions.columns := by decide
  have hrecords := Csv.records_of_fileText h hlength hmark
  rw [recordsOf, List.map_cons] at hrecords
  rw [Csv.parse_of_records hrecords ?_, hheading]
  · simp only [List.map_map, List.length_map]
    rfl
  · intro cells hcells
    obtain ⟨record, hrecord, rfl⟩ := List.mem_map.mp hcells
    obtain ⟨row, _, rfl⟩ := List.mem_map.mp hrecord
    rfl

/-! ## Cells that survive -/

/-- A cell of a column is a text or a scalar. -/
theorem text_or_scalar_of_mem_column {written : List (List Char)} {v : Value}
    (h : v ∈ Csv.column written) : (∃ s, v = .text s) ∨ v.IsScalar := by
  have hmap : ∀ {α : Type} {toValue : α → Value} {results : List (Option α)},
      v ∈ results.map (Csv.orMissing toValue) →
      (∀ a, (∃ s, toValue a = .text s) ∨ (toValue a).IsScalar) →
      (∃ s, v = .text s) ∨ v.IsScalar := by
    intro α toValue results hmem hvalue
    obtain ⟨result, _, rfl⟩ := List.mem_map.mp hmem
    cases result with
    | none => exact Or.inr trivial
    | some a => exact hvalue a
  have htext : ∀ {cells : Csv.Cells}, v ∈ Csv.textColumn cells → (∃ s, v = .text s) ∨ v.IsScalar :=
    fun hmem => hmap hmem fun cs => Or.inl ⟨_, rfl⟩
  rw [Csv.column] at h
  split at h
  · split at h
    · exact hmap h fun n => Or.inr trivial
    · refine hmap h fun n => Or.inr ?_
      rw [Csv.besideMissing]
      split
      · trivial
      · trivial
  · rw [Csv.otherColumn] at h
    split at h
    · exact hmap h fun x => Or.inr trivial
    split at h
    · exact hmap h fun b => Or.inr trivial
    · exact htext h
  · exact htext h
  · exact htext h

/-- A cell without NUL is read to its end. -/
theorem untilNul_eq_self_iff (cs : List Char) : Csv.untilNul cs = cs ↔ '\x00' ∉ cs := by
  rw [Csv.untilNul, List.takeWhile_eq_self_iff]
  constructor
  · intro h hmem
    exact absurd (h _ hmem) (by decide)
  · intro h c hc
    rw [bne_iff_ne]
    intro hzero
    have hnul : c = '\x00' := Char.toNat_inj.mp hzero
    exact h (hnul ▸ hc)

section Cells

variable {rows : List TextRow} {row : TextRow} {i : Nat} (column : TextRow → String)

/-- A cell is read as a text if its column keeps it, up to a NUL. -/
theorem reading_eq_text_iff (h : rows[i]? = some row) (s : String) :
    reading rows column i = .text s ↔
      Csv.Kept (written rows column) (Csv.untilNul (column row).toList) ∧
        s.toList = Csv.untilNul (column row).toList := by
  have hcell : (written rows column)[i]? = some (Csv.untilNul (column row).toList) := by
    rw [written, List.getElem?_map, h]
    rfl
  rw [← Csv.column_eq_text_iff hcell, reading, List.getD_eq_getElem?_getD]
  cases (Csv.column (written rows column))[i]? with
  | none => exact iff_of_false nofun nofun
  | some v => rw [Option.getD_some, Option.some_inj]

/-- **A CELL COMES BACK** exactly if it survives. -/
theorem reading_eq_iff (h : rows[i]? = some row) :
    reading rows column i = .text (column row) ↔ Survives rows column row := by
  rw [reading_eq_text_iff column h, Survives, ← untilNul_eq_self_iff]
  constructor
  · rintro ⟨hkept, hsame⟩
    rw [← hsame] at hkept
    exact ⟨hsame.symm, hkept⟩
  · rintro ⟨hsame, hkept⟩
    rw [hsame]
    exact ⟨hkept, rfl⟩

/-- A cell without NUL is read as its text or as a scalar. -/
theorem isReading_reading (h : rows[i]? = some row) (hnul : '\x00' ∉ (column row).toList) :
    IsReading (column row) (reading rows column i) := by
  have hshape : (∃ s, reading rows column i = .text s) ∨ (reading rows column i).IsScalar := by
    rw [reading, List.getD_eq_getElem?_getD]
    cases hcell : (Csv.column (written rows column))[i]? with
    | none => exact Or.inr trivial
    | some v => exact text_or_scalar_of_mem_column (List.mem_of_getElem? hcell)
  rcases hshape with ⟨s, hs⟩ | hscalar
  · obtain ⟨_, hsame⟩ := (reading_eq_text_iff column h s).mp hs
    rw [(untilNul_eq_self_iff _).mpr hnul] at hsame
    rw [hs, String.toList_inj.mp hsame]
    exact Or.inl rfl
  · exact Or.inr hscalar

/-- A cell with a letter that no number has survives, if it has no NUL. -/
theorem survives_of_letter (hrow : row ∈ rows) (hnul : '\x00' ∉ (column row).toList)
    (hletter : Csv.oddLetter ∈ (column row).toList) : Survives rows column row := by
  refine ⟨hnul, Csv.kept_of_letter ?_ hletter⟩
  refine List.mem_map.mpr ⟨row, hrow, ?_⟩
  exact (untilNul_eq_self_iff _).mpr hnul

end Cells

/-- A list that is made place by place is made of the elements of another. -/
theorem map_range_eq_map_iff {α β : Type} (items : List α) (f : Nat → β) (g : α → β) :
    (List.range items.length).map f = items.map g ↔ ∀ i a, items[i]? = some a → f i = g a := by
  constructor
  · intro h i a ha
    have hplace := congrArg (·[i]?) h
    obtain ⟨hlt, rfl⟩ := List.getElem?_eq_some_iff.mp ha
    simpa [hlt] using hplace
  · intro h
    refine List.ext_getElem? fun i => ?_
    cases ha : items[i]? with
    | none =>
        have hle := List.getElem?_eq_none_iff.mp ha
        simp [hle]
    | some a =>
        have hsame := h i a ha
        obtain ⟨hlt, rfl⟩ := List.getElem?_eq_some_iff.mp ha
        simp [hlt, hsame]

/-- **THE TABLES ARE EQUAL** exactly if all cells survive. -/
theorem readings_eq_texts_iff (rows : List TextRow) :
    readings rows = texts rows ↔
      ∀ row ∈ rows, ∀ column ∈ TextRow.columns, Survives rows column row := by
  have hrows : readings rows = texts rows ↔ (readings rows).rows = (texts rows).rows := by
    constructor
    · exact congrArg Table.rows
    · intro h
      rw [readings, texts, Table.mk.injEq]
      exact ⟨rfl, h, rfl⟩
  -- Row by row, the cells are equal if each of them comes back.
  have hcells : ∀ i row, rows[i]? = some row →
      ((TextRow.columns.map fun column => reading rows column i) = row.cells.map Value.text ↔
        ∀ column ∈ TextRow.columns, Survives rows column row) := by
    intro i row hrow
    rw [TextRow.cells, List.map_map, List.map_inj_left]
    exact forall₂_congr fun column _ => reading_eq_iff column hrow
  rw [hrows, readings, texts, map_range_eq_map_iff]
  constructor
  · intro h row hrow
    obtain ⟨i, hi⟩ := List.mem_iff_getElem?.mp hrow
    exact (hcells i row hi).mp (h i row hi)
  · intro h i row hi
    exact (hcells i row hi).mpr (h row (List.mem_of_getElem? hi))

/-! ## Rows for a document -/

/-- The rows that are about the file of the given name. -/
def rowsFor (file : String) (rows : List TextRow) : List TextRow :=
  rows.filter fun row => row.file == file

/-- A row as a database gives it. -/
def textRow (row : TextRow) : Row := Definitions.columns.zip (row.cells.map Value.text)

/-- The row at some place of a table as it is read from a CSV file. -/
def readRow (rows : List TextRow) (i : Nat) : Row :=
  Definitions.columns.zip (TextRow.columns.map fun column => reading rows column i)

/-- The rows that a database gives for a file. -/
theorem rowsAbout_texts (rows : List TextRow) (file : String) :
    rowsAbout (texts rows) file = .ok ((rowsFor file rows).map textRow) := by
  show Except.ok (((texts rows).rows.filter fun cells => (cells.getD 0 .null).isText file).map
    (Definitions.columns.zip ·)) = _
  rw [texts, List.filter_map, List.map_map]
  rfl

/-- The places of the rows that are about the file of the given name. -/
def placesFor (file : String) (rows : List TextRow) : List Nat :=
  (List.range rows.length).filter fun i => rows[i]?.any fun row => row.file == file

/-- The places are those of rows about the file. -/
theorem mem_placesFor {file : String} {rows : List TextRow} {i : Nat} :
    i ∈ placesFor file rows ↔ ∃ row, rows[i]? = some row ∧ row.file = file := by
  rw [placesFor, List.mem_filter, List.mem_range]
  constructor
  · rintro ⟨_, hany⟩
    cases hrow : rows[i]? with
    | none => rw [hrow] at hany; exact nomatch hany
    | some row => rw [hrow] at hany; exact ⟨row, rfl, beq_iff_eq.mp hany⟩
  · rintro ⟨row, hrow, rfl⟩
    obtain ⟨hlt, _⟩ := List.getElem?_eq_some_iff.mp hrow
    exact ⟨hlt, by simp [hrow]⟩

/-- The rows for a document stand at these places, in order. -/
theorem forall₂_placesFor (file : String) (rows : List TextRow) :
    List.Forall₂ (fun i row => rows[i]? = some row) (placesFor file rows) (rowsFor file rows) := by
  have hrange : List.Forall₂ (fun i row => rows[i]? = some row) (List.range rows.length) rows := by
    rw [List.forall₂_iff_get]
    refine ⟨List.length_range, fun i _ h => ?_⟩
    simp
  refine List.rel_filter ?_ hrange
  intro i row hrow
  show (rows[i]?.any fun row => row.file == file) = true ↔ (row.file == file) = true
  rw [hrow, Option.any_some]

/-- **ROWS FOR A DOCUMENT** stand in a file in the same places as in a database, since names of
documents survive. -/
theorem rowsAbout_readings {rows : List TextRow} (hnul : WithoutNul rows) {file : String}
    (hletter : Csv.oddLetter ∈ file.toList) :
    rowsAbout (readings rows) file = .ok ((placesFor file rows).map (readRow rows)) := by
  have habout : ∀ i ∈ List.range rows.length,
      (reading rows TextRow.file i).isText file = rows[i]?.any fun row => row.file == file := by
    intro i hi
    obtain ⟨row, hrow⟩ : ∃ row, rows[i]? = some row :=
      ⟨_, List.getElem?_eq_getElem (List.mem_range.mp hi)⟩
    have hmem := List.mem_of_getElem? hrow
    have hcell := hnul row hmem TextRow.file List.mem_cons_self
    rw [hrow, Option.any_some]
    -- A cell that is read as a scalar is not the name of the document, for that has the odd letter.
    rcases isReading_reading TextRow.file hrow hcell with htext | hscalar
    · rw [htext]
      rfl
    · rw [isText_of_scalar hscalar, eq_comm, beq_eq_false_iff_ne]
      rintro rfl
      have hsurvives := survives_of_letter TextRow.file hmem hcell hletter
      rw [(reading_eq_iff TextRow.file hrow).mpr hsurvives] at hscalar
      exact hscalar
  show Except.ok (((readings rows).rows.filter fun cells => (cells.getD 0 .null).isText file).map
    (Definitions.columns.zip ·)) = _
  rw [readings, List.filter_map, List.map_map, placesFor, ← List.filter_congr habout]
  rfl

/-- The table has a name for a document that no number could be. -/
theorem oddLetter_mem_of_load {store : Store} {path file : String} {doc : Document}
    {settings : Value} (hdoc : Document.load store path = .ok doc)
    (hfile : nameInTable settings path = .ok file) : Csv.oddLetter ∈ file.toList := by
  obtain ⟨_, hends, _⟩ := exists_of_load hdoc
  have hbase : Csv.oddLetter ∈ (Store.baseName path).toList := hends.subset (by decide)
  have hpath : Csv.oddLetter ∈ path.toList := by
    rw [Store.baseName, String.toList_ofList, List.mem_reverse] at hbase
    exact List.mem_reverse.mp ((List.takeWhile_sublist _).subset hbase)
  obtain ⟨has, _, hfile⟩ := bind_eq_ok.mp hfile
  dsimp only at hfile
  split at hfile
  · obtain ⟨v, _, hfile⟩ := bind_eq_ok.mp hfile
    split at hfile
    · cases hfile; exact hbase
    · cases hfile; exact hpath
  · cases hfile; exact hpath

/-! ## Settings -/

/-- Settings that take definitions from a CSV file. -/
def fromCsv (others : Fields) (file : String) : Value :=
  .record (Fields.set others "definitions"
    (.record [("type", .text "CsvDefinitionsProvider"), ("filename", .text file)]))

/-- Settings that take definitions from a database. -/
def fromDatabase (others : Fields) (file query : String) : Value :=
  .record (Fields.set others "definitions"
    (.record [("type", .text "SQLiteReader"), ("filename", .text file), ("query", .text query)]))

/-- A database with the rows. -/
def databaseWith (route : Route) (rows : List TextRow) : Option Definitions.Database :=
  some ⟨route, (texts rows).rows⟩

theorem lookup_definitions (others : Fields) (part : Value) :
    (Value.record (Fields.set others "definitions" part)).lookup "definitions" = .ok part := by
  rw [Value.lookup, get?_set, if_pos rfl]

/-- Where definitions come from does not matter for the name of a document. -/
theorem nameInTable_set (others : Fields) (part : Value) (path : String) :
    nameInTable (.record (Fields.set others "definitions" part)) path =
      nameInTable (.record others) path := by
  have hget : Fields.get? (Fields.set others "definitions" part) "use_basename" =
      Fields.get? others "use_basename" := by
    rw [get?_set, if_neg (by decide)]
  simp only [nameInTable, Value.has, Value.holds, Fields.has, Value.lookup, hget]

/-- Settings that name a CSV file give its readings. -/
theorem ofSettings_fromCsv {rows : List TextRow} {store : Store} {file text : String}
    (hread : store.read file = .ok text) (h : Csv.FileText (recordsOf rows) text.toList)
    (others : Fields) (database : Option Definitions.Database) :
    Definitions.ofSettings (fromCsv others file) store database = .ok (.table (readings rows)) := by
  have hfile : Definitions.ofFile store (.text file) = .ok (readings rows) := by
    rw [Definitions.ofFile, if_pos (Store.contains_of_read hread), hread]
    exact parse_fileText h
  rw [Definitions.ofSettings, fromCsv, lookup_definitions]
  show Definitions.fetch .csv _ store database = _
  rw [Definitions.fetch, lookup_definitions]
  show (Definitions.ofFile store (.text file) >>= fun table =>
    pure (Definitions.Yield.table table)) = _
  rw [hfile]
  rfl

/-- Settings that name a database give the texts. -/
theorem ofSettings_fromDatabase {store : Store} {file : String} {route : Route}
    (h : store.find file = .free route) (rows : List TextRow) (others : Fields) (query : String) :
    Definitions.ofSettings (fromDatabase others file query) store (databaseWith route rows) =
      .ok (.table (texts rows)) := by
  have hname : ¬ file.isEmpty = true := by
    intro hempty
    rw [String.isEmpty_iff.mp hempty] at h
    exact nomatch h
  have hrows : Definitions.rowsOf (databaseWith route rows) store file =
      .ok (texts rows).rows := by
    rw [Definitions.rowsOf, databaseWith, if_neg hname, h]
    exact if_pos (beq_self_eq_true route)
  rw [Definitions.ofSettings, fromDatabase, lookup_definitions]
  show Definitions.fetch .database _ store _ = _
  rw [Definitions.fetch, lookup_definitions]
  show (Definitions.rowsOf _ store file >>= fun rows =>
    pure (Definitions.Yield.table { columns := Definitions.columns, rows })) = _
  rw [hrows]
  rfl

/-! ## Updates from either source -/

section Updates

variable {rows : List TextRow} {row : TextRow} {i : Nat}

theorem hasCells_textRow (row : TextRow) :
    HasCells (textRow row) (.text row.kind) (.text row.name) (.text row.definition) :=
  ⟨rfl, rfl, rfl⟩

theorem hasCells_readRow (rows : List TextRow) (i : Nat) :
    HasCells (readRow rows i) (reading rows TextRow.kind i) (reading rows TextRow.name i)
      (reading rows TextRow.definition i) :=
  ⟨rfl, rfl, rfl⟩

/-- The kinds of fields survive. -/
theorem reading_of_fieldKind (hnul : WithoutNul rows) (h : rows[i]? = some row)
    (hkind : row.kind ∈ fieldKinds) : reading rows TextRow.kind i = .text row.kind := by
  have hmem := List.mem_of_getElem? h
  refine (reading_eq_iff TextRow.kind h).mpr (survives_of_letter TextRow.kind hmem ?_ ?_)
  · exact hnul row hmem TextRow.kind (by simp [TextRow.columns])
  · exact (by decide : ∀ kind ∈ fieldKinds, Csv.oddLetter ∈ kind.toList) row.kind hkind

/-- The readings of the row at some place are those of a row of texts. -/
theorem isReading_of_mem (hnul : WithoutNul rows) (h : rows[i]? = some row)
    (column : TextRow → String) (hcolumn : column ∈ TextRow.columns) :
    IsReading (column row) (reading rows column i) :=
  isReading_reading column h (hnul row (List.mem_of_getElem? h) column hcolumn)

/-- All rows about a file are read alike for a document. -/
def AllReadAlike (rows : List TextRow) (doc : Document) (file : String) : Prop :=
  ∀ i row, rows[i]? = some row → row.file = file →
    ReadsAlike doc row (reading rows TextRow.kind i) (reading rows TextRow.name i)
      (reading rows TextRow.definition i)

/-- **UPDATES ARE ONE AND THE SAME** where all rows about a document are read alike. -/
theorem updated_of_alike (hnul : WithoutNul rows) {csv database : Value} {store : Store}
    {path file : String} (hcsv : nameInTable csv path = .ok file)
    (hdatabase : nameInTable database path = .ok file)
    (halike : ∀ doc, Document.load store path = .ok doc → AllReadAlike rows doc file) :
    updated csv (.table (readings rows)) store (.text path) =
      updated database (.table (texts rows)) store (.text path) := by
  obtain ⟨read, hread⟩ : ∃ read, rowsAbout (readings rows) file = .ok read := ⟨_, rfl⟩
  rw [updated_eq hcsv hread, updated_eq hdatabase (rowsAbout_texts rows file)]
  cases readLines store path with
  | error fault => rfl
  | ok lines =>
      cases hdoc : Document.load store path with
      | error fault => rfl
      | ok doc =>
          -- Only now there is a document, whose name has a letter that no number has.
          rw [rowsAbout_readings hnul (oddLetter_mem_of_load hdoc hcsv)] at hread
          obtain rfl := Except.ok.inj hread
          refine foldlM_describe_congr ?_ lines
          rw [List.forall₂_map_left_iff, List.forall₂_map_right_iff]
          refine List.Forall₂.imp ?_
            ((List.forall₂_and_left _ _).mpr ⟨fun i hi => hi, forall₂_placesFor file rows⟩)
          rintro i row ⟨hplace, hrow⟩ lines
          obtain ⟨row', hrow', hfile⟩ := mem_placesFor.mp hplace
          cases hrow.symm.trans hrow'
          have hreading := isReading_of_mem hnul hrow
          exact (halike doc hdoc i row hrow hfile).describe_eq hdoc
            (hreading TextRow.kind (by simp [TextRow.columns])) (reading_of_fieldKind hnul hrow)
            (hreading TextRow.name (by simp [TextRow.columns]))
            (hreading TextRow.definition (by simp [TextRow.columns])) (hasCells_textRow row)
            (hasCells_readRow rows i) lines

/-- A row that makes a request makes it also as it is read, with the definition as it is read, if
its name comes back. -/
theorem Requests.of_readRow {doc : Document} {request : Request} (hnul : WithoutNul rows)
    (hrow : rows[i]? = some row) (hname : reading rows TextRow.name i = .text row.name)
    (h : Requests doc (textRow row) request) :
    Requests doc (readRow rows i)
      { request with definition := reading rows TextRow.definition i } := by
  obtain ⟨kind, name, definition, old, present⟩ := request
  cases (hasCells_textRow row).kind.symm.trans h.kind
  cases (hasCells_textRow row).name.symm.trans h.name
  obtain ⟨field, hlocated, hanswer⟩ := h.field
  obtain ⟨_, key, _, _, _, hkey, hfieldKind, _⟩ := hlocated.found
  cases hkey
  exact {
    kind := congrArg Except.ok (reading_of_fieldKind hnul hrow hfieldKind)
    name := congrArg Except.ok hname
    definition := rfl
    field := ⟨field, hlocated, hanswer⟩ }

/-- **AN UPDATE ENDS AS WELL** with a file as with a database exactly if all names come back. -/
theorem exists_updated_iff (hnul : WithoutNul rows) {csv database : Value} {store : Store}
    {path file : String} (hcsv : nameInTable csv path = .ok file)
    (hdatabase : nameInTable database path = .ok file) {lines : List Line}
    (h : updated database (.table (texts rows)) store (.text path) = .ok lines) :
    (∃ after, updated csv (.table (readings rows)) store (.text path) = .ok after) ↔
      ∀ row ∈ rows, row.file = file → Survives rows TextRow.name row := by
  rw [updated_eq hdatabase (rowsAbout_texts rows file)] at h
  obtain ⟨start, hstart, h⟩ := bind_eq_ok.mp h
  obtain ⟨doc, hdoc, hwalk⟩ := bind_eq_ok.mp h
  have hrequests := exists_requests_of_foldlM hwalk
  have hread := rowsAbout_readings hnul (oddLetter_mem_of_load hdoc hcsv)
  rw [updated_eq hcsv hread, hstart, hdoc]
  show (∃ after, ((placesFor file rows).map (readRow rows)).foldlM (describe doc) start =
    .ok after) ↔ _
  constructor
  · rintro ⟨after, hafter⟩ row hmem hfile
    obtain ⟨i, hrow⟩ := List.mem_iff_getElem?.mp hmem
    have hplace := mem_placesFor.mpr ⟨row, hrow, hfile⟩
    obtain ⟨request, hrequest⟩ := exists_requests_of_foldlM hafter _ (List.mem_map_of_mem hplace)
    refine (reading_eq_iff TextRow.name hrow).mp ?_
    -- A name that is read as a scalar locates no field, so the walk would have stopped.
    rcases isReading_of_mem hnul hrow TextRow.name (by simp [TextRow.columns]) with
      htext | hscalar
    · exact htext
    · exact absurd hrequest
        (not_requests_of_scalar hdoc (hasCells_readRow rows i).name hscalar request)
  · intro hsurvive
    have hall : ∀ read ∈ (placesFor file rows).map (readRow rows),
        ∃ request, Requests doc read request := by
      intro read hmem
      obtain ⟨i, hplace, rfl⟩ := List.mem_map.mp hmem
      obtain ⟨row, hrow, hfile⟩ := mem_placesFor.mp hplace
      have hfor : row ∈ rowsFor file rows :=
        List.mem_filter.mpr ⟨List.mem_of_getElem? hrow, beq_iff_eq.mpr hfile⟩
      obtain ⟨request, hrequest⟩ := hrequests _ (List.mem_map_of_mem hfor)
      have hname := (reading_eq_iff TextRow.name hrow).mpr
        (hsurvive row (List.mem_of_getElem? hrow) hfile)
      exact ⟨_, hrequest.of_readRow hnul hrow hname⟩
    obtain ⟨requests, hrequests'⟩ := exists_forall₂ hall
    exact ⟨_, foldlM_describe_of_requests hrequests' start⟩

end Updates

/-- Fetching a table and updating from it, step by step, comes to the journal in which the lines of
the update are written. -/
theorem perform_comesTo_table {settings : Value} {database : Option Definitions.Database}
    {store : Store} {table : Table}
    (h : Definitions.ofSettings settings store database = .ok (.table table)) (path out : String)
    (writings : List (String × String)) :
    Work.ComesTo (perform settings database (.text path) (.text out)) ⟨store, writings⟩
      (updated settings (.table table) store (.text path) >>= fun lines =>
        Journal.write ⟨store, writings⟩ out (join lines)) := by
  have hcomes : Work.ComesTo (perform settings database (.text path) (.text out))
      ⟨store, writings⟩ _ := Work.comesTo_look_bind fun definitions =>
    amend_comesTo settings definitions (.text path) (.text out) ⟨store, writings⟩
  rw [h] at hcomes
  exact hcomes

/-- **ONE TABLE FROM TWO SOURCES**: a table of texts that is written as a CSV file is read as its
readings, and from a database come its texts; these tables are equal exactly if every cell survives,
which hangs on its whole column.  An update of any document does the same with either source, be it
writing or stopping with a fault, if no cell has a NUL and all rows about the document are read
alike.  An update that ends well with the database does so with the file exactly if the names in
these rows survive. -/
theorem providers_agree_where_read_alike (others : Fields) {rows : List TextRow} {store : Store}
    {csvFile text dbFile : String} {route : Route} (query : String)
    (hread : store.read csvFile = .ok text) (htext : Csv.FileText (recordsOf rows) text.toList)
    (hfree : store.find dbFile = .free route) :
    Definitions.ofSettings (fromCsv others csvFile) store (databaseWith route rows) =
      .ok (.table (readings rows)) ∧
    Definitions.ofSettings (fromDatabase others dbFile query) store (databaseWith route rows) =
      .ok (.table (texts rows)) ∧
    (readings rows = texts rows ↔
      ∀ row ∈ rows, ∀ column ∈ TextRow.columns, Survives rows column row) ∧
    (WithoutNul rows → ∀ path out file writings, nameInTable (.record others) path = .ok file →
      ((∀ doc, Document.load store path = .ok doc → AllReadAlike rows doc file) →
        (perform (fromCsv others csvFile) (databaseWith route rows) (.text path)
            (.text out)).run ⟨store, writings⟩ =
          (perform (fromDatabase others dbFile query) (databaseWith route rows) (.text path)
            (.text out)).run ⟨store, writings⟩) ∧
      ((∃ after, (perform (fromDatabase others dbFile query) (databaseWith route rows) (.text path)
          (.text out)).run ⟨store, writings⟩ = .ok () after) →
        ((∃ after, (perform (fromCsv others csvFile) (databaseWith route rows) (.text path)
            (.text out)).run ⟨store, writings⟩ = .ok () after) ↔
          ∀ row ∈ rows, row.file = file → Survives rows TextRow.name row))) := by
  have hcsv := ofSettings_fromCsv hread htext others (databaseWith route rows)
  have hdatabase := ofSettings_fromDatabase hfree rows others query
  refine ⟨hcsv, hdatabase, readings_eq_texts_iff rows, ?_⟩
  intro hnul path out file writings hfile
  have hcsvFile : nameInTable (fromCsv others csvFile) path = .ok file :=
    (nameInTable_set others _ path).trans hfile
  have hdatabaseFile : nameInTable (fromDatabase others dbFile query) path = .ok file :=
    (nameInTable_set others _ path).trans hfile
  have hcsvRun := perform_comesTo_table hcsv path out writings
  have hdatabaseRun := perform_comesTo_table hdatabase path out writings
  constructor
  · intro halike
    rw [updated_of_alike hnul hcsvFile hdatabaseFile halike] at hcsvRun
    exact hcsvRun.trans hdatabaseRun.symm
  · intro hends
    obtain ⟨after, hafter⟩ := hdatabaseRun.exists_ok_iff.mp hends
    obtain ⟨lines, hlines, hwritten⟩ := bind_eq_ok.mp hafter
    obtain ⟨written, hwrite, _⟩ := bind_eq_ok.mp hwritten
    rw [hcsvRun.exists_ok_iff, ← exists_updated_iff hnul hcsvFile hdatabaseFile hlines]
    constructor
    · rintro ⟨after', hafter'⟩
      obtain ⟨lines', hlines', _⟩ := bind_eq_ok.mp hafter'
      exact ⟨lines', hlines'⟩
    · rintro ⟨lines', hlines'⟩
      obtain ⟨written', hwrite'⟩ := Store.write_of_write hwrite (join lines')
      refine ⟨⟨written', writings ++ [(out, join lines')]⟩, ?_⟩
      rw [hlines']
      show (store.write out (join lines') >>= fun store => _) = _
      rw [hwrite']
      rfl

/-! ## A definition that is a number -/

/-- One row, for the dimension of a view. -/
def loneRows (definition : String) : List TextRow :=
  [⟨"v.view.lkml", "dimension", "a", definition⟩]

/-- The view, and a CSV file with the row. -/
def loneShelf (definition : String) : Store where
  files := [(["v.view.lkml"], String.ofList lone),
    (["defs.csv"], Csv.render (texts (loneRows definition)))]

/-- An update of the view from the file, and from a database with the row. -/
def loneUpdates (definition : String) :
    EStateM.Result Fault Journal Unit × EStateM.Result Fault Journal Unit :=
  ((perform (fromCsv [] "defs.csv") (databaseWith ["defs.db"] (loneRows definition))
      (.text "v.view.lkml") (.text "out.view.lkml")).run ⟨loneShelf definition, []⟩,
    (perform (fromDatabase [] "defs.db" "select * from definitions")
      (databaseWith ["defs.db"] (loneRows definition)) (.text "v.view.lkml")
      (.text "out.view.lkml")).run ⟨loneShelf definition, []⟩)

/-- What has been written when work ends, well or not. -/
def writingsOf : EStateM.Result Fault Journal Unit → List (String × String)
  | .ok _ journal => journal.writings
  | .error _ journal => journal.writings

theorem load_loneShelf (definition : String) :
    Document.load (loneShelf definition) "v.view.lkml" =
      Document.load loneJournal.store "v.view.lkml" := by
  have hread : (loneShelf definition).read "v.view.lkml" = loneJournal.store.read "v.view.lkml" :=
    rfl
  have hcontains : (loneShelf definition).contains "v.view.lkml" =
      loneJournal.store.contains "v.view.lkml" := rfl
  rw [Document.load, Document.load, hread, hcontains]

/-- A number is told from its text in the table, but not by an update that only writes it. -/
theorem number_described_alike :
    readings (loneRows "42") ≠ texts (loneRows "42") ∧
      (loneUpdates "42").1 = (loneUpdates "42").2 := by
  have htext : Csv.FileText (recordsOf (loneRows "42"))
      (Csv.render (texts (loneRows "42"))).toList := fileText_render (by decide)
  obtain ⟨_, _, htables, hruns⟩ := providers_agree_where_read_alike []
    "select * from definitions" (rfl : (loneShelf "42").read "defs.csv" = .ok _) htext
    (rfl : (loneShelf "42").find "defs.db" = .free ["defs.db"])
  have hdefinition : reading (loneRows "42") TextRow.definition 0 = .int 42 := rfl
  constructor
  · intro htable
    have hsurvives := htables.mp htable _ List.mem_cons_self TextRow.definition
      (by simp [TextRow.columns])
    exact nomatch hdefinition.symm.trans ((reading_eq_iff TextRow.definition rfl).mpr hsurvives)
  · have hnul : WithoutNul (loneRows "42") := by
      unfold WithoutNul
      decide
    refine (hruns hnul "v.view.lkml" "out.view.lkml" "v.view.lkml" [] rfl).1 ?_
    intro doc hdoc i row hrow _
    obtain ⟨doc', hdoc', ⟨field, hlocated⟩, hold, _⟩ := lone_fields
    rw [load_loneShelf] at hdoc
    cases hdoc.symm.trans hdoc'
    have hfound := (findDescription_eq_ok_iff _ _ _ _).mpr ⟨field, hlocated, rfl⟩
    have hanswer : answer field = (.text "", (answer field).2) := Prod.ext (hold field hlocated) rfl
    cases i with
    | succ i => exact nomatch hrow
    | zero =>
        cases hrow
        rw [ReadsAlike, hfound, hanswer, hdefinition]
        exact ⟨rfl, rfl⟩

/-- The view with a description of its dimension. -/
def loneDescribed (description : String) : String :=
  "view: v \x7b\n  dimension: a \x7b\n    description: \"" ++ description ++
    "\"\t# programmatically added by LookML modifier\n  \x7d\n\x7d\n"

/-- Zeros in front of a number are lost on the way through a CSV file, and the update writes another
description than from a database. -/
theorem leading_zeros_lost :
    Csv.render (texts (loneRows "007")) =
      "file,type,name,definition\nv.view.lkml,dimension,a,007\n" ∧
    Csv.FileText (recordsOf (loneRows "007")) (Csv.render (texts (loneRows "007"))).toList ∧
    writingsOf (loneUpdates "007").1 = [("out.view.lkml", loneDescribed "7")] ∧
    writingsOf (loneUpdates "007").2 = [("out.view.lkml", loneDescribed "007")] := by
  refine ⟨by decide, fileText_render (by decide), ?_⟩
  decide +kernel

end LookmlProject.Update
