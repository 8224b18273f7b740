import LookmlProject.Csv.Writer
import LookmlProject.Store.Report
import LookmlProject.Value.Access

/-!
# Loading reports into a warehouse

A report reaches the warehouse in one of two ways: at once, or through a CSV file that is staged in
a bucket and loaded from there.  A `Load` is the order for it.
-/

namespace LookmlProject

/-- A staged load: where the file is kept, and the table that it is loaded into. -/
structure StagedLoad where
  storageProject : Value
  bucket : String
  folder : String
  file : String
  project : Value
  dataset : Value
  table : Value
  report : Table

/-- The place of the file in the bucket. -/
def StagedLoad.blob (load : StagedLoad) : String := load.folder ++ "/" ++ load.file

/-- The address from which the warehouse loads the file. -/
def StagedLoad.address (load : StagedLoad) : String :=
  "gs://" ++ load.bucket ++ "/" ++ load.folder ++ "/" ++ load.file

/-- An order to load a report. -/
inductive Load where
  /-- Load a report into a table of a project at once. -/
  | direct (table project ifExists : Value) (report : Table)
  /-- Load a report through a staged file. -/
  | staged (load : StagedLoad)

/-- The store together with the orders given so far. -/
structure Desk where
  store : Store
  loads : List Load

/-- Work at a desk that may stop; what was done before stays done. -/
abbrev Delivery := EStateM Fault Desk

namespace Delivery

/-- A result that may be a fault. -/
def lift {α : Type} (result : Except Fault α) : Delivery α :=
  match result with
  | .ok a => pure a
  | .error fault => throw fault

/-- Gives an order. -/
def order (load : Load) : Delivery Unit :=
  modify fun desk => { desk with loads := desk.loads ++ [load] }

/-- Saves a table as a CSV file. -/
def save (path : String) (table : Table) : Delivery Unit := do
  let desk ← get
  let store ← lift (desk.store.saveReport path (Csv.render table))
  set { desk with store := store }

end Delivery

namespace Upload

/-- The name of staged files. -/
def stagedName : String := "tmp_upload.csv"

/-- Orders a direct load.  The table is always the one for fields. -/
def direct (report : Table) (settings : Value) (ifExists : Value) : Delivery Unit := do
  let part ← Delivery.lift do (← settings.lookup "output").lookup "simple_biquery"
  let table ← Delivery.lift (part.lookup "field_destination_table")
  let project ← Delivery.lift (part.lookup "project_id")
  Delivery.order (.direct table project ifExists report)

/-- Makes a folder if that can be done; only a path that cannot be is a fault. -/
def tryFolders (path : String) : Delivery Unit := do
  let desk ← get
  let (store, fault) := desk.store.makeFolders path
  set { desk with store := store }
  match fault with
  | some .badValue => throw .badValue
  | _ => return ()

/-- Writes a report to a file in a folder named like bucket and folder, unless a file is given. -/
def stage (report : Table) (bucket folder file : Value) : Delivery Value := do
  if file.truthy then return file
  else
    let bucket ← Delivery.lift bucket.asText
    let folder ← Delivery.lift folder.asText
    let place := Store.join bucket folder
    tryFolders place
    let path := Store.join place stagedName
    Delivery.save path report
    return .text path

/-- Stages a report and orders its load into the table that a setting names. -/
def staged (report : Table) (settings : Value) (tableKey : Value) : Delivery Unit := do
  let part ← Delivery.lift do (← settings.lookup "output").lookup "bigquery"
  let storageProject ← Delivery.lift (part.lookup "gcs_project_id")
  let project ← Delivery.lift (part.lookup "project_id")
  let table ← Delivery.lift (part.entry tableKey)
  let dataset ← Delivery.lift (part.lookup "dataset")
  let bucket ← Delivery.lift (part.lookup "target_bucket_name")
  let folder ← Delivery.lift (part.lookup "bucket_folder")
  let file ← stage report bucket folder .null
  let bucket ← Delivery.lift bucket.asText
  let folder ← Delivery.lift folder.asText
  let file ← Delivery.lift file.asText
  Delivery.order (.staged ⟨storageProject, bucket, folder, file, project, dataset, table, report⟩)

end Upload

end LookmlProject
