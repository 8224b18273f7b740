import LookmlProject.Proofs.AllOrNothing

/-! # Files that are in sync are left alone

    A row is in sync with a document if the description of its field is its
    definition already.  Such a row asks for nothing (`InSync.describe_eq`), so a
    walk through rows of this kind leaves all lines as they are
    (`foldlM_describe_of_inSync`).  What is written is then the text that was read,
    cut into lines and put together again, and reading has changed the ends of
    lines only.  `LineFeeds` says this without a function: every line ends by a
    line feed now, and nothing else is different. -/

namespace LookmlProject

/-! ## Ends of lines -/

/-- The second text is the first with a line feed for each carriage return and line feed, and for
each carriage return alone. -/
inductive LineFeeds : List Char → List Char → Prop where
  | nil : LineFeeds [] []
  | pair {text feeds : List Char} : LineFeeds text feeds →
      LineFeeds ('\r' :: '\n' :: text) ('\n' :: feeds)
  | alone {text feeds : List Char} : text.head? ≠ some '\n' → LineFeeds text feeds →
      LineFeeds ('\r' :: text) ('\n' :: feeds)
  | same {c : Char} {text feeds : List Char} : c ≠ '\r' → LineFeeds text feeds →
      LineFeeds (c :: text) (c :: feeds)

open Text in
/-- Reading gives each text the line feeds that it has to have. -/
theorem lineFeeds_iff (text feeds : List Char) :
    LineFeeds text feeds ↔ feeds = unifyNewlines text := by
  constructor
  · intro h
    induction h with
    | nil => rfl
    | pair _ ih => rw [unifyNewlines, ih]
    | @alone text _ halone _ ih =>
        rw [unifyNewlines, ih]
        rintro rest rfl
        exact halone rfl
    | @same c text _ hc _ ih =>
        rw [unifyNewlines, ih]
        · rintro rest rfl
          exact absurd rfl hc
        · exact hc
  · rintro rfl
    fun_induction unifyNewlines text with
    | case1 => exact .nil
    | case2 rest ih => exact .pair ih
    | case3 rest hrest ih =>
        refine .alone (fun hhead => ?_) ih
        obtain ⟨tail, rfl⟩ := List.head?_eq_some_iff.mp hhead
        exact hrest tail rfl
    | case4 c rest _ hc ih => exact .same hc ih

namespace Update

open Lookml Edit Value

/-! ## Rows in sync -/

/-- The description of the field that a row names is the definition of the row. -/
def InSync (doc : Document) (row : Row) : Prop :=
  ∃ kind name text present, cell row "type" = .ok kind ∧ cell row "name" = .ok name ∧
    findDescription doc kind name = .ok (.text text, present) ∧
    cell row "definition" = .ok (.text text)

/-- **A ROW IN SYNC** asks for nothing. -/
theorem InSync.describe_eq {doc : Document} {row : Row} (h : InSync doc row) (lines : List Line) :
    describe doc lines row = .ok lines := by
  obtain ⟨kind, name, text, present, hkind, hname, hfound, hdefinition⟩ := h
  have hcurrent : isCurrent (.text text) (.text text) = true := beq_self_eq_true text
  rw [describe, hkind]
  simp only [bind, Except.bind, hname, hfound, lineCount, hdefinition, hcurrent]
  rfl

/-- **A WALK THROUGH ROWS** that are in sync leaves all lines as they are. -/
theorem foldlM_describe_of_inSync {doc : Document} {rows : List Row}
    (h : ∀ row ∈ rows, InSync doc row) (lines : List Line) :
    rows.foldlM (describe doc) lines = .ok lines := by
  induction rows with
  | nil => rfl
  | cons row rest ih =>
      rw [List.foldlM_cons, (h row List.mem_cons_self).describe_eq]
      exact ih fun other hother => h other (List.mem_cons_of_mem _ hother)

/-- **IN SYNC**: a file that can be read as a document is updated from a table of which every row
that is about the file is in sync with the document.  Then the output is written once, with the text
of the file in which each end of a line has become a line feed, and nothing else is different; so a
text without carriage returns is written as it is.  No other file changes. -/
theorem amend_in_sync (settings : Fields) {table : Table} (htable : IsDefinitions table)
    (journal : Journal) {path out file text : String} {doc : Document}
    (hfile : nameInTable (.record settings) path = .ok file)
    (htext : journal.store.read path = .ok text)
    (hdoc : Document.load journal.store path = .ok doc)
    (hsync : ∀ cells ∈ table.rows, isAbout table file cells = true →
      InSync doc (rowOf table cells))
    (hout : (journal.store.target out).isWritable = true) :
    ∃ written after,
      (amend (.record settings) (.table table) (.text path) (.text out)).run journal =
        .ok () ⟨after, journal.writings ++ [(out, written)]⟩ ∧
      LineFeeds text.toList written.toList ∧ ('\r' ∉ text.toList → written = text) ∧
      Store.Wrote journal.store out written after := by
  obtain ⟨rows, hrows, _, _⟩ := rowsAbout_eq htable file
  have hall : ∀ row ∈ rows, InSync doc row := by
    intro row hrow
    obtain ⟨cells, hcells, habout, rfl⟩ := exists_of_mem_rowsAbout htable hrows hrow
    exact hsync cells hcells habout
  have hupdated : updated (.record settings) (.table table) journal.store (.text path) =
      .ok (Text.lines (Text.unifyNewlines text.toList)) := by
    rw [updated_eq hfile hrows, readLines_eq htext, hdoc]
    exact foldlM_describe_of_inSync hall _
  have hcomes := amend_comesTo (.record settings) (.table table) (.text path) (.text out) journal
  rw [hupdated] at hcomes
  change Work.ComesTo _ journal (journal.write out (join (Text.lines _))) at hcomes
  rw [join, Text.flatten_lines] at hcomes
  obtain ⟨after, hwrite, hwrote⟩ :=
    Store.exists_wrote hout (String.ofList (Text.unifyNewlines text.toList))
  rw [Journal.write, hwrite] at hcomes
  refine ⟨_, after, hcomes, ?_, fun hplain => ?_, hwrote⟩
  · rw [lineFeeds_iff, String.toList_ofList]
  · rw [Text.unifyNewlines_of_not_mem hplain, String.ofList_toList]

/-- A view with a dimension and a measure; lines end in three ways, and the last does not end. -/
def mixedEnds : List Char :=
  "view: v \x7b\r\n  dimension: a \x7b description: \"A\" \x7d\r  measure: m \x7b \x7d\n\x7d".toList

/-- The same view with line feeds only. -/
def mixedRead : String :=
  "view: v \x7b\n  dimension: a \x7b description: \"A\" \x7d\n  measure: m \x7b \x7d\n\x7d"

/-- A journal of a store with the first view, in which nothing is written yet. -/
def mixedJournal : Journal := ⟨storeOf "v.view.lkml" mixedEnds, []⟩

/-- The description of the dimension, and that the measure has none. -/
theorem mixedEnds_fields :
    ∃ doc, Document.load mixedJournal.store "v.view.lkml" = .ok doc ∧
      (∃ present, findDescription doc (.text "dimension") (.text "a") =
        .ok (.text "A", present)) ∧
      ∃ present, findDescription doc (.text "measure") (.text "m") = .ok (.text "", present) := by
  have hsummary : ((Document.load mixedJournal.store "v.view.lkml").toOption.map fun doc =>
      ((findDescription doc (.text "dimension") (.text "a")).toOption.map (·.1.isText "A"),
        (findDescription doc (.text "measure") (.text "m")).toOption.map (·.1.isText ""))) =
      some (some true, some true) := by
    decide +kernel
  have hfound : ∀ {result : Except Fault (Value × Bool)} {s : String},
      result.toOption.map (·.1.isText s) = some true →
        ∃ present, result = .ok (.text s, present) := by
    intro result s h
    cases result with
    | error fault => cases h
    | ok found =>
        have hdescription : found.1 = .text s := eq_text_of_isText (Option.some.inj h)
        exact ⟨found.2, by rw [← hdescription]⟩
  cases hdoc : Document.load mixedJournal.store "v.view.lkml" with
  | error fault => rw [hdoc] at hsummary; cases hsummary
  | ok doc =>
      rw [hdoc] at hsummary
      obtain ⟨hdimension, hmeasure⟩ := Prod.mk.inj (Option.some.inj hsummary)
      exact ⟨doc, rfl, hfound hdimension, hfound hmeasure⟩

/-- Definitions that say what the view says already: all that changes are the ends of its lines. -/
theorem mixedEnds_left_alone :
    ∃ after, (amend (.record []) (.table (loneTable [⟨"measure", "m", ""⟩])) (.text "v.view.lkml")
        (.text "v.view.lkml")).run mixedJournal =
      .ok () ⟨after, [("v.view.lkml", mixedRead)]⟩ := by
  obtain ⟨doc, hdoc, ⟨_, hdimension⟩, _, hmeasure⟩ := mixedEnds_fields
  have hsync : ∀ cells ∈ (loneTable [⟨"measure", "m", ""⟩]).rows,
      isAbout (loneTable [⟨"measure", "m", ""⟩]) "v.view.lkml" cells = true →
      InSync doc (rowOf (loneTable [⟨"measure", "m", ""⟩]) cells) := by
    intro cells hcells _
    rcases List.mem_cons.mp hcells with rfl | hcells
    · exact ⟨_, _, _, _, rfl, rfl, hdimension, rfl⟩
    · cases List.mem_singleton.mp hcells
      exact ⟨_, _, _, _, rfl, rfl, hmeasure, rfl⟩
  have hout : (mixedJournal.store.target "v.view.lkml").isWritable = true := rfl
  obtain ⟨written, after, hrun, hfeeds, _⟩ :=
    amend_in_sync [] (isDefinitions_loneTable _) mixedJournal rfl rfl hdoc hsync hout
  have hwritten := String.toList_inj.mp (((lineFeeds_iff _ _).mp hfeeds).trans
    (by decide : _ = mixedRead.toList))
  exact ⟨after, hwritten ▸ hrun⟩

end Update
end LookmlProject
