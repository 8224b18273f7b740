import LookmlProject.Proofs.LintRows

/-! # Which report reaches which table

    A lint with rows sends each report to the warehouse by two writers, at once and
    through a staged file.  A section of the settings belongs to each writer and
    names a table for each kind of report; `Routed` says that the reports with rows
    have reached the tables of their kinds, each once and nothing else.  The route:

    * saving and staging files gives no order (`Quiet`);
    * each writer gives one order for a report (`direct_orders`, `staged_orders`),
      so a report with rows leads to one order of either (`deliver_orders`) and the
      whole lint to those of its two reports (`run_orders`).

    The staged orders are routed.  The direct ones carry the same reports, but all
    of them to the table for fields (`reports_routed_unless_documents`). -/

namespace LookmlProject.Lint

open Lookml Value

/-! ## Tables and reports -/

/-- A way into the warehouse. -/
inductive Writer where
  | direct
  | staged

/-- The section of the settings that belongs to a writer. -/
def Writer.sectionKey : Writer → String
  | .direct => "simple_biquery"
  | .staged => "bigquery"

/-- A report on its way to a table. -/
structure Sent where
  table : Value
  report : Table

/-- What an order sends, if it is one of the writer. -/
def Writer.sent? : Writer → Load → Option Sent
  | .direct, .direct table _ _ report => some ⟨table, report⟩
  | .staged, .staged load => some ⟨load.table, load.report⟩
  | _, _ => none

/-- What a writer sends by some orders. -/
def Writer.sentBy (writer : Writer) (loads : List Load) : List Sent := loads.filterMap writer.sent?

/-- The section of the settings for a writer. -/
def Writer.part (writer : Writer) (settings : Value) : Except Fault Value := do
  (← settings.lookup "output").lookup writer.sectionKey

/-- The table that the section of a writer names for a kind of report. -/
def Writer.tableFor (writer : Writer) (settings : Value) (kind : ReportKind) : Except Fault Value :=
  do (← writer.part settings).lookup kind.tableKey

/-- The origin of the rows. -/
def originOf (settings : Value) : Except Fault Value := do (← settings.lookup "git").lookup "url"

/-- The kinds of reports with the records of a lint, those without records left out. -/
def reportsOf (rows : Rows) : List (ReportKind × List Fields) :=
  [(documentReport, rows.documents.map DocumentRow.fields),
    (fieldReport, rows.fields.map FieldRow.fields)].filter fun report => !report.2.isEmpty

/-- Records as a report with the time and the origin of a lint. -/
def Reports (settings : Value) (time : String) (records : List Fields) (report : Table) : Prop :=
  ∃ origin, originOf settings = .ok origin ∧ reportTable records time origin = .ok report

/-- A report of records has been sent to the table for its kind. -/
def Routes (settings : Value) (time : String) (writer : Writer)
    (records : ReportKind × List Fields) (sent : Sent) : Prop :=
  Reports settings time records.2 sent.report ∧
    writer.tableFor settings records.1 = .ok sent.table

/-- Every report of a lint that has rows, and nothing else, has been sent once by a writer, to the
table for its kind. -/
def Routed (settings : Value) (time : String) (rows : Rows) (writer : Writer)
    (loads : List Load) : Prop :=
  List.Forall₂ (Routes settings time writer) (reportsOf rows) (writer.sentBy loads)

/-- Routed reports are at the tables for their kinds, in order. -/
theorem Routed.tables {settings : Value} {time : String} {rows : Rows} {writer : Writer}
    {loads : List Load} (h : Routed settings time rows writer loads) :
    (reportsOf rows).map (fun report => writer.tableFor settings report.1) =
      (writer.sentBy loads).map fun sent => .ok sent.table := by
  rw [Routed] at h
  generalize reportsOf rows = reports at h ⊢
  generalize writer.sentBy loads = sent at h ⊢
  induction h with
  | nil => rfl
  | cons hroutes _ ih => rw [List.map_cons, List.map_cons, hroutes.2, ih]

/-! ## Work without orders -/

/-- Work that gives no order. -/
def Quiet {α : Type} (work : Delivery α) : Prop :=
  ∀ ⦃desk desk' : Desk⦄ ⦃a : α⦄, work.run desk = .ok a desk' → desk'.loads = desk.loads

theorem quiet_pure {α : Type} (a : α) : Quiet (pure a : Delivery α) := by
  intro desk desk' b h
  cases h
  rfl

theorem quiet_throw {α : Type} (fault : Fault) : Quiet (throw fault : Delivery α) := by
  intro desk desk' a h
  exact nomatch h

theorem Quiet.bind {α β : Type} {work : Delivery α} {next : α → Delivery β} (h : Quiet work)
    (h' : ∀ a, Quiet (next a)) : Quiet (work >>= next) := by
  intro desk desk' b hrun
  obtain ⟨a, middle, hwork, hnext⟩ := bind_run_eq_ok hrun
  rw [h' a hnext, h hwork]

theorem quiet_lift {α : Type} (result : Except Fault α) : Quiet (Delivery.lift result) := by
  cases result with
  | error fault => exact quiet_throw fault
  | ok a => exact quiet_pure a

theorem quiet_save (path : String) (table : Table) : Quiet (Delivery.save path table) := by
  intro desk desk' a h
  obtain ⟨here, _, hget, h⟩ := bind_run_eq_ok h
  cases hget
  obtain ⟨store, _, _, h⟩ := bind_run_eq_ok h
  cases h
  rfl

theorem quiet_tryFolders (path : String) : Quiet (Upload.tryFolders path) := by
  intro desk desk' a h
  obtain ⟨here, _, hget, h⟩ := bind_run_eq_ok h
  cases hget
  generalize desk.store.makeFolders path = made at h
  obtain ⟨store, fault⟩ := made
  obtain ⟨_, middle, hset, h⟩ := bind_run_eq_ok h
  cases hset
  split at h
  · exact nomatch h
  · cases h
    rfl

theorem quiet_stage (report : Table) (bucket folder file : Value) :
    Quiet (Upload.stage report bucket folder file) := by
  rw [Upload.stage]
  split
  · exact quiet_pure file
  · refine (quiet_lift _).bind fun _ => (quiet_lift _).bind fun _ => ?_
    exact (quiet_tryFolders _).bind fun _ => (quiet_save _ _).bind fun _ => quiet_pure _

theorem quiet_writeReport (settings : Value) (kind : ReportKind) (report : Table) :
    Quiet (writeReport settings kind report) := by
  refine (quiet_lift _).bind fun path => ?_
  cases path with
  | null => exact quiet_pure ()
  | text path => exact quiet_save _ _
  | _ => exact quiet_throw _

/-! ## Orders -/

/-- Work at a desk that may be left out, and what follows it. -/
theorem optional_run_eq_ok {asked : Bool} {work : Delivery Unit} {next : Unit → Delivery Unit}
    {desk desk' : Desk}
    (h : (if asked = true then work >>= next else next ()).run desk = .ok () desk') :
    ∃ middle, (if asked = true then work else pure ()).run desk = .ok () middle ∧
      (next ()).run middle = .ok () desk' := by
  cases asked with
  | true =>
      obtain ⟨_, middle, hwork, hnext⟩ := bind_run_eq_ok h
      exact ⟨middle, hwork, hnext⟩
  | false => exact ⟨desk, rfl, h⟩

variable {settings : Value} {time : String} {desk desk' : Desk}

/-- **A DIRECT LOAD** is one order.  Its table is the one for fields, whatever the report is
about. -/
theorem direct_orders {report : Table} {ifExists : Value}
    (h : (Upload.direct report settings ifExists).run desk = .ok () desk') :
    ∃ table project, Writer.direct.tableFor settings fieldReport = .ok table ∧
      desk'.loads = desk.loads ++ [.direct table project ifExists report] := by
  rw [Upload.direct] at h
  obtain ⟨part, _, hpart, h⟩ := bind_run_eq_ok h
  obtain ⟨table, _, htable, h⟩ := bind_run_eq_ok h
  obtain ⟨project, middle, hproject, h⟩ := bind_run_eq_ok h
  refine ⟨table, project, bind_eq_ok.mpr ⟨part, lift_run_eq_ok hpart, lift_run_eq_ok htable⟩, ?_⟩
  cases h
  show middle.loads ++ _ = _
  rw [quiet_lift _ hproject, quiet_lift _ htable, quiet_lift _ hpart]

/-- **A STAGED LOAD** is one order, to the table that the settings name under the key. -/
theorem staged_orders {report : Table} {kind : ReportKind}
    (h : (Upload.staged report settings (.text kind.tableKey)).run desk = .ok () desk') :
    ∃ load : StagedLoad, load.report = report ∧
      Writer.staged.tableFor settings kind = .ok load.table ∧
      desk'.loads = desk.loads ++ [.staged load] := by
  rw [Upload.staged] at h
  obtain ⟨part, _, hpart, h⟩ := bind_run_eq_ok h
  obtain ⟨storage, _, hstorage, h⟩ := bind_run_eq_ok h
  obtain ⟨project, _, hproject, h⟩ := bind_run_eq_ok h
  obtain ⟨table, _, htable, h⟩ := bind_run_eq_ok h
  obtain ⟨dataset, _, hdataset, h⟩ := bind_run_eq_ok h
  obtain ⟨bucket, _, hbucket, h⟩ := bind_run_eq_ok h
  obtain ⟨folder, _, hfolder, h⟩ := bind_run_eq_ok h
  obtain ⟨file, _, hstage, h⟩ := bind_run_eq_ok h
  obtain ⟨bucketText, _, hbucketText, h⟩ := bind_run_eq_ok h
  obtain ⟨folderText, _, hfolderText, h⟩ := bind_run_eq_ok h
  obtain ⟨fileText, middle, hfileText, h⟩ := bind_run_eq_ok h
  have hnamed : part.lookup kind.tableKey = .ok table := by
    have hentry := lift_run_eq_ok htable
    cases part <;> exact hentry
  refine ⟨⟨storage, bucketText, folderText, fileText, project, dataset, table, report⟩, rfl,
    bind_eq_ok.mpr ⟨part, lift_run_eq_ok hpart, hnamed⟩, ?_⟩
  cases h
  show middle.loads ++ _ = _
  rw [quiet_lift _ hfileText, quiet_lift _ hfolderText, quiet_lift _ hbucketText,
    quiet_stage _ _ _ _ hstage, quiet_lift _ hfolder, quiet_lift _ hbucket, quiet_lift _ hdataset,
    quiet_lift _ htable, quiet_lift _ hproject, quiet_lift _ hstorage, quiet_lift _ hpart]

/-- The two orders for a report: the direct one to the table for fields, and the staged one to the
table for the kind of the report. -/
def Orders (settings : Value) (time : String) (records : ReportKind × List Fields)
    (loads : List Load) : Prop :=
  ∃ (report : Table) (table project ifExists : Value) (load : StagedLoad),
    loads = [.direct table project ifExists report, .staged load] ∧
    Reports settings time records.2 report ∧ load.report = report ∧
    Writer.direct.tableFor settings fieldReport = .ok table ∧
    Writer.staged.tableFor settings records.1 = .ok load.table

/-- **ONE REPORT**: without records nothing is ordered, and with records its two orders are given,
if the settings ask for both writers. -/
theorem deliver_orders {kind : ReportKind} {records : List Fields}
    (hdirect : asksFor settings "simple_biquery" = .ok true)
    (hstaged : asksFor settings "bigquery" = .ok true)
    (h : (deliver settings time kind records).run desk = .ok () desk') :
    ∃ loads, desk'.loads = desk.loads ++ loads ∧
      (if records.isEmpty then loads = [] else Orders settings time (kind, records) loads) := by
  rw [deliver] at h
  split at h
  · next hnone =>
      cases h
      exact ⟨[], (List.append_nil _).symm, by rw [if_pos hnone]⟩
  next hsome =>
  obtain ⟨origin, _, horigin, h⟩ := bind_run_eq_ok h
  obtain ⟨report, _, hreport, h⟩ := bind_run_eq_ok h
  obtain ⟨csv, start, hcsv, h⟩ := bind_run_eq_ok h
  dsimp only at h
  obtain ⟨saved, hsaved, h⟩ := optional_run_eq_ok h
  have hstart : start.loads = desk.loads := by
    rw [quiet_lift _ hcsv, quiet_lift _ hreport, quiet_lift _ horigin]
  have hquiet : saved.loads = start.loads := by
    cases csv with
    | true => exact quiet_writeReport _ _ _ hsaved
    | false => exact quiet_pure _ hsaved
  obtain ⟨asked, _, hasked, h⟩ := bind_run_eq_ok h
  rw [hdirect] at hasked
  cases hasked
  obtain ⟨sent, hsent, h⟩ := optional_run_eq_ok h
  obtain ⟨asked, _, hasked, h⟩ := bind_run_eq_ok h
  rw [hstaged] at hasked
  cases hasked
  obtain ⟨table, project, htable, hloads⟩ := direct_orders hsent
  obtain ⟨load, hload, hkind, hloads'⟩ := staged_orders h
  refine ⟨[.direct table project (.text "append") report, .staged load], ?_, ?_⟩
  · rw [hloads', hloads, hquiet, hstart, List.append_assoc]
    rfl
  · rw [if_neg hsome]
    exact ⟨report, table, project, _, load, rfl,
      ⟨origin, lift_run_eq_ok horigin, lift_run_eq_ok hreport⟩, hload, htable, hkind⟩

/-- **THE WHOLE LINT** gives the orders of its reports with rows, one report after the other. -/
theorem run_orders {linter : Linter} {expand : Glob.Expansion} {rows : Rows}
    (hdirect : asksFor linter.settings "simple_biquery" = .ok true)
    (hstaged : asksFor linter.settings "bigquery" = .ok true)
    (h : (linter.runWith expand time).run desk = .ok rows desk') :
    ∃ parts : List (List Load), desk'.loads = desk.loads ++ parts.flatten ∧
      List.Forall₂ (Orders linter.settings time) (reportsOf rows) parts := by
  rw [Linter.runWith] at h
  obtain ⟨here, _, hget, h⟩ := bind_run_eq_ok h
  cases hget
  obtain ⟨collected, _, hcollect, h⟩ := bind_run_eq_ok h
  obtain ⟨_, _, hasks, h⟩ := bind_run_eq_ok h
  obtain ⟨_, _, hasks', h⟩ := bind_run_eq_ok h
  obtain ⟨_, _, hdocuments, h⟩ := bind_run_eq_ok h
  obtain ⟨_, _, hfields, h⟩ := bind_run_eq_ok h
  cases h
  obtain ⟨first, hfirst, horders⟩ := deliver_orders hdirect hstaged hdocuments
  obtain ⟨second, hsecond, horders'⟩ := deliver_orders hdirect hstaged hfields
  rw [hfirst, quiet_lift _ hasks', quiet_lift _ hasks, quiet_lift _ hcollect] at hsecond
  -- A report without records is left out of the list, and gives no order.
  rw [reportsOf, List.filter_cons, List.filter_cons, List.filter_nil]
  dsimp only
  cases hnone : (rows.documents.map DocumentRow.fields).isEmpty <;>
    cases hnone' : (rows.fields.map FieldRow.fields).isEmpty <;>
    simp only [hnone, hnone', Bool.false_eq_true, if_false, if_true] at horders horders'
  · exact ⟨[first, second], by simp [hsecond], .cons horders (.cons horders' .nil)⟩
  · exact ⟨[first], by simp [hsecond, horders'], .cons horders .nil⟩
  · exact ⟨[second], by simp [hsecond, horders], .cons horders' .nil⟩
  · exact ⟨[], by simp [hsecond, horders, horders'], .nil⟩

/-! ## Routes -/

/-- A report of records has been sent to the table for fields of the direct writer. -/
def GoesToFields (settings : Value) (time : String) (records : ReportKind × List Fields)
    (sent : Sent) : Prop :=
  Reports settings time records.2 sent.report ∧
    Writer.direct.tableFor settings fieldReport = .ok sent.table

/-- What the orders of some reports send: the same reports by both writers, staged to the tables for
their kinds and directly to the table for fields. -/
theorem sent_of_orders {reports : List (ReportKind × List Fields)} {parts : List (List Load)}
    (h : List.Forall₂ (Orders settings time) reports parts) :
    List.Forall₂ (Routes settings time .staged) reports (Writer.staged.sentBy parts.flatten) ∧
    List.Forall₂ (GoesToFields settings time) reports (Writer.direct.sentBy parts.flatten) ∧
    (Writer.direct.sentBy parts.flatten).map Sent.report =
      (Writer.staged.sentBy parts.flatten).map Sent.report := by
  induction h with
  | nil => exact ⟨.nil, .nil, rfl⟩
  | cons horders _ ih =>
      obtain ⟨hstaged, hdirect, hsame⟩ := ih
      obtain ⟨report, table, project, ifExists, load, rfl, hreport, rfl, htable, hkind⟩ := horders
      exact ⟨.cons ⟨hreport, hkind⟩ hstaged, .cons ⟨hreport, htable⟩ hdirect,
        congrArg (load.report :: ·) hsame⟩

/-- Reports that were all sent to the table for fields are routed if this is the table for each of
their kinds. -/
theorem routes_iff_field_table {reports : List (ReportKind × List Fields)} {sent : List Sent}
    (h : List.Forall₂ (GoesToFields settings time) reports sent) :
    List.Forall₂ (Routes settings time .direct) reports sent ↔ ∀ records ∈ reports,
      Writer.direct.tableFor settings records.1 = Writer.direct.tableFor settings fieldReport := by
  induction h with
  | nil => simp
  | cons hsent _ ih =>
      rw [List.forall₂_cons, ih, List.forall_mem_cons]
      refine and_congr_left fun _ => ?_
      rw [Routes, hsent.2]
      exact and_iff_right hsent.1

/-- The reports of a lint are all about fields, or the one about documents is among them. -/
theorem forall_reportsOf (rows : Rows) (good : ReportKind → Prop) (hfields : good fieldReport) :
    (∀ records ∈ reportsOf rows, good records.1) ↔ rows.documents = [] ∨ good documentReport := by
  constructor
  · intro h
    by_cases hnone : rows.documents = []
    · exact Or.inl hnone
    · refine Or.inr (h (documentReport, rows.documents.map DocumentRow.fields) ?_)
      simp [reportsOf, hnone]
  · rintro h records hmem
    simp only [reportsOf, List.mem_filter, List.mem_cons, List.not_mem_nil, or_false] at hmem
    obtain ⟨rfl | rfl, hsome⟩ := hmem
    · refine h.resolve_left fun hnone => ?_
      simp [hnone] at hsome
    · exact hfields

/-- **ROUTES**: a lint that comes to its end, with settings that ask for both writers, sends each of
its reports that has rows, and nothing else, once by either writer.  The staged ones reach the
tables for their kinds.  The direct ones are the same reports and all go to the table for fields, so
they are routed exactly if there are no rows about documents, or if the section names one table for
both kinds. -/
theorem reports_routed_unless_documents {linter : Linter} {expand : Glob.Expansion} {rows : Rows}
    (hdirect : asksFor linter.settings "simple_biquery" = .ok true)
    (hstaged : asksFor linter.settings "bigquery" = .ok true)
    (h : (linter.runWith expand time).run desk = .ok rows desk') :
    ∃ loads : List Load, desk'.loads = desk.loads ++ loads ∧
      Routed linter.settings time rows .staged loads ∧
      (Writer.direct.sentBy loads).map Sent.report =
        (Writer.staged.sentBy loads).map Sent.report ∧
      List.Forall₂ (GoesToFields linter.settings time) (reportsOf rows)
        (Writer.direct.sentBy loads) ∧
      (Routed linter.settings time rows .direct loads ↔ rows.documents = [] ∨
        Writer.direct.tableFor linter.settings documentReport =
          Writer.direct.tableFor linter.settings fieldReport) := by
  obtain ⟨parts, hloads, horders⟩ := run_orders hdirect hstaged h
  obtain ⟨hrouted, hfields, hsame⟩ := sent_of_orders horders
  refine ⟨parts.flatten, hloads, hrouted, hsame, hfields, ?_⟩
  rw [Routed, routes_iff_field_table hfields]
  exact forall_reportsOf rows (fun kind => Writer.direct.tableFor linter.settings kind =
    Writer.direct.tableFor linter.settings fieldReport) rfl

/-- Settings for both writers. -/
def bothWriters : Value :=
  .record [("rules", .record []), ("infile_globs", .list [.text "*.lkml"]),
    ("git", .record [("url", .text "u")]),
    ("output", .record [
      ("simple_biquery", .record [("project_id", .text "p"),
        ("file_destination_table", .text "files"), ("field_destination_table", .text "fields")]),
      ("bigquery", .record [("gcs_project_id", .text "g"), ("project_id", .text "p"),
        ("dataset", .text "d"), ("target_bucket_name", .text "b"), ("bucket_folder", .text "f"),
        ("file_destination_table", .text "files"),
        ("field_destination_table", .text "fields")])])]

/-- A lint for both writers with some rules about documents and one about fields. -/
def bothLinter (documentRules : List Rule) : Linter :=
  ⟨bothWriters, documentRules, [⟨.description, .null⟩]⟩

/-- Without rules about documents the one report reaches the table for fields by both writers. -/
theorem fields_routed :
    ∃ rows desk' loads, ((bothLinter []).run "now").run smallDesk = .ok rows desk' ∧
      desk'.loads = smallDesk.loads ++ loads ∧ rows.fields.length = 2 ∧
      Routed bothWriters "now" rows .direct loads ∧ Routed bothWriters "now" rows .staged loads := by
  have hsummary : (match ((bothLinter []).run "now").run smallDesk with
      | .ok rows _ => some (rows.documents.length, rows.fields.length)
      | .error _ _ => none) = some (0, 2) := by
    decide +kernel
  cases hrun : ((bothLinter []).run "now").run smallDesk with
  | error fault desk => rw [hrun] at hsummary; exact nomatch hsummary
  | ok rows desk' =>
      rw [hrun] at hsummary
      obtain ⟨hnone, htwo⟩ := Prod.mk.inj (Option.some.inj hsummary)
      obtain ⟨loads, hloads, hstaged, _, _, hrouted⟩ :=
        reports_routed_unless_documents rfl rfl hrun
      exact ⟨rows, desk', loads, rfl, hloads, htwo,
        hrouted.mpr (Or.inl (List.length_eq_zero_iff.mp hnone)), hstaged⟩

/-- A table as a text, if it is there. -/
def shownTable (table : Except Fault Value) : Option String := table.toOption.map Value.display

/-- With a rule about documents, rows about documents are sent directly to the table for fields. -/
theorem documents_not_routed :
    asksFor bothWriters "simple_biquery" = .ok true ∧ asksFor bothWriters "bigquery" = .ok true ∧
    ∃ rows desk', ((bothLinter [⟨.oneViewPerFile, .null⟩]).run "now").run smallDesk =
        .ok rows desk' ∧
      ∀ loads, desk'.loads = smallDesk.loads ++ loads →
        ¬ Routed bothWriters "now" rows .direct loads := by
  refine ⟨rfl, rfl, ?_⟩
  have hsummary : (match ((bothLinter [⟨.oneViewPerFile, .null⟩]).run "now").run smallDesk with
      | .ok rows desk' => some
          ((reportsOf rows).map fun report =>
              shownTable (Writer.direct.tableFor bothWriters report.1),
            (Writer.direct.sentBy desk'.loads).map fun sent => shownTable (.ok sent.table))
      | .error _ _ => none) =
      some ([some "files", some "fields"], [some "fields", some "fields"]) := by
    decide +kernel
  cases hrun : ((bothLinter [⟨.oneViewPerFile, .null⟩]).run "now").run smallDesk with
  | error fault desk => rw [hrun] at hsummary; exact nomatch hsummary
  | ok rows desk' =>
      rw [hrun] at hsummary
      obtain ⟨hwanted, hsent⟩ := Prod.mk.inj (Option.some.inj hsummary)
      refine ⟨rows, desk', rfl, fun loads hloads hrouted => ?_⟩
      have htables := congrArg (List.map shownTable) hrouted.tables
      rw [List.map_map, List.map_map] at htables
      rw [show desk'.loads = loads from hloads] at hsent
      exact absurd (hwanted.symm.trans (htables.trans hsent)) (by decide)

end LookmlProject.Lint
