import LookmlProject.Keyed
import LookmlProject.Value.Access

/-!
# Settings

The settings of a project: where it is kept, how it is drawn, which documents it has, how it is
linted and where definitions come from.  The keys that the project uses are texts; others may be set
beside them.
-/

namespace LookmlProject

/-- Settings by key. -/
structure Settings where
  entries : Keyed Value Value

namespace Settings

/-- A rule that runs. -/
def activeRule (name : String) : Value := .record [("name", .text name), ("run", .bool true)]

/-- The settings of a drawing. -/
def defaultGrapher : Value := .record [
  ("output", .text "graph.png"),
  ("options", .record [
    ("node_size", .int 500), ("label_font_size", .int 18), ("text_angle", .int 30),
    ("image_width", .int 24), ("image_height", .int 16)]),
  ("roots", .list [.text "*"])]

/-- The settings of a lint. -/
def defaultLinter : Value := .record [
  ("rules", .record [
    ("file_level_rules", .list (
      ["DataSourceRule", "OneViewPerFileRule", "FilenameViewnameMatchRule"].map activeRule)),
    ("field_level_rules", .list (
      ["DescriptionRule", "DrillDownRule", "YesNoNameRule", "CountNameRule", "AllCapsRule"].map
        activeRule ++ [
      .record [("name", .text "LexiconRule"), ("run", .bool true),
        ("phrases", .list [.text "Subscriber", .text "Subscription", .text "studio"])]])),
    ("other_rules", .list [activeRule "NoOrphansRule"])]),
  ("output", .record [
    ("csv", .record [
      ("file_output", .text "linter_file_report.csv"),
      ("field_output", .text "linter_field_report.csv")]),
    ("bigquery", .record [
      ("target_bucket_name", .text "your_bucket"), ("bucket_folder", .text "your_folder"),
      ("project_id", .text "your-project"), ("dataset", .text "your-dataset"),
      ("file_destination_table", .text "lookml_linter_file_report"),
      ("field_destination_table", .text "lookml_linter_field_report")])])]

/-- The settings of a project that says nothing else. -/
def initial : Settings := ⟨[
  (.text "git", .record [
    ("url", .text "https://github.com/exampleorg/examplerepo.git"),
    ("folder", .text "gitrepo")]),
  (.text "grapher", defaultGrapher),
  (.text "infile_globs", .list [.text "*.*.lkml", .text "**/*.*.lkml"]),
  (.text "linter", defaultLinter),
  (.text "updater", .record [
    ("definitions", .record [
      ("type", .text "CsvDefinitionsProvider"), ("filename", .text "definitions.csv")])])]⟩

/-- A setting, null where there is none. -/
def get (settings : Settings) (key : String) : Value :=
  (settings.entries.get? (.text key)).getD .null

/-- Puts a setting in place. -/
def set (settings : Settings) (key : String) (value : Value) : Settings :=
  ⟨settings.entries.set (.text key) value⟩

/-- The setting under any key, null where there is none. -/
def getAt (settings : Settings) (key : Value) : Except Fault Value := do
  return (settings.entries.get? (← key.asKey)).getD .null

/-- Whether there is a setting under a key. -/
def contains (settings : Settings) (key : Value) : Except Fault Bool := do
  return settings.entries.contains (← key.asKey)

/-- Puts a setting under any key in place. -/
def setAt (settings : Settings) (key value : Value) : Except Fault Settings := do
  return ⟨settings.entries.set (← key.asKey) value⟩

/-- Puts an entry of a setting that is a record in place. -/
def setEntry (settings : Settings) (key entry : String) (value : Value) : Except Fault Settings :=
  match settings.get key with
  | .record fields => .ok (settings.set key (.record (Value.Fields.set fields entry value)))
  | _ => .error .wrongShape

end Settings

end LookmlProject
