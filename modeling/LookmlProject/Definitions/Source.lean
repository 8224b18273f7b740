import LookmlProject.Csv.Reader
import LookmlProject.Definitions.Server
import LookmlProject.Store.Basic
import LookmlProject.Value.Display

/-!
# Sources of definitions

Definitions of fields are kept in a table with a row for each field.  It comes from a CSV file, from
a database or from a warehouse; the settings say from which, and how it is asked for.
-/

namespace LookmlProject.Definitions

/-- Where definitions come from. -/
inductive Source where
  | csv
  | warehouse
  | database
  | server (kind : Server)
deriving DecidableEq, Repr

/-- The source that a name stands for. -/
def Source.ofName? : String → Option Source
  | "CsvDefinitionsProvider" => some .csv
  | "BqDefinitionsProvider" => some .warehouse
  | "SQLiteReader" => some .database
  | "MySQLReader" => some (.server .mysql)
  | "PostgreSQLReader" => some (.server .postgres)
  | _ => none

/-- The source that a value names. -/
def Source.ofValue : Value → Except Fault Source
  | .text name =>
    match ofName? name with
    | some source => .ok source
    | none => .error (.missingKey name)
  | .list _ | .record _ => .error .wrongShape
  | _ => .error .missingEntry

/-- A database: the place of its file, and the rows of its table of definitions. -/
structure Database where
  route : Route
  rows : List (List Value)

/-- A query to a warehouse. -/
structure Query where
  query : Value
  project : Value

/-- What a source gives. -/
inductive Yield where
  | table (table : Table)
  | query (query : Query)

/-- The columns of the definitions in a database. -/
def columns : List String := ["file", "type", "name", "definition"]

/-- The table of a CSV file that has to be there.  A number is a stream: the three standard ones are
no files, and no other is there. -/
def ofFile (store : Store) (file : Value) : Except Fault Table :=
  match file with
  | .text path =>
    if store.contains path then do Csv.parse (← store.read path).toList else .error .violated
  | .int n =>
    if n < -Int.pow 2 31 || Int.pow 2 31 ≤ n then .error .tooLarge
    else if 0 ≤ n && n ≤ 2 then .error .badValue
    else .error .violated
  | .bool _ => .error .badValue
  | _ => .error .wrongShape

/-- The rows of definitions in the database that a file is.  Any file that is not there can be opened
as a database without tables. -/
def rowsOf (database : Option Database) (store : Store) (file : String) :
    Except Fault (List (List Value)) :=
  if file.isEmpty then .error .noDefinitions
  else
    match store.find file with
    | .unusable => .error .badValue
    | .free route =>
      match database with
      | some d => if d.route == route then .ok d.rows else .error .noDefinitions
      | none => .error .noDefinitions
    | .file _ _ | .unknown true => .error .noDefinitions
    | _ => .error .noDatabase

/-- The query that asks a warehouse for the definitions: the one in the settings, or one for the
whole table. -/
def warehouseQuery (part : Value) : Except Fault Query := do
  let project ← part.lookup "project"
  if ← part.has "query" then return ⟨← part.lookup "query", project⟩
  else
    let dataset ← part.lookup "dataset"
    let table ← part.lookup "table"
    return ⟨.text ("SELECT * FROM `" ++ dataset.display ++ "." ++ table.display ++ "`"), project⟩

/-- Asks a source for the definitions.  What a server answers cannot be read as a table. -/
def fetch (source : Source) (settings : Value) (store : Store) (database : Option Database) :
    Except Fault Yield := do
  let part ← settings.lookup "definitions"
  match source with
  | .csv => return .table (← ofFile store (← part.lookup "filename"))
  | .warehouse => return .query (← warehouseQuery part)
  | .database =>
    let query ← part.lookup "query"
    let file ← (← part.lookup "filename").asText
    let rows ← rowsOf database store file
    let _ ← query.asText
    return .table { columns, rows }
  | .server _ =>
    let _ ← part.lookup "query"
    let _ ← Credentials.ofSettings settings
    throw .wrongShape

/-- The definitions from the source that the settings name. -/
def ofSettings (settings : Value) (store : Store) (database : Option Database) :
    Except Fault Yield := do
  let source ← Source.ofValue (← (← settings.lookup "definitions").lookup "type")
  fetch source settings store database

end LookmlProject.Definitions
