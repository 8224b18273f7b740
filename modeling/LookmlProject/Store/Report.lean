import LookmlProject.Store.Basic

/-!
# Saving reports

A report is saved only into a folder that exists, and the fault names the folder that does not.  The
folder is shown as its path reads without empty parts and single dots.
-/

namespace LookmlProject.Store

/-- How an absolute path starts: two slashes stay two, and any other number of them is one. -/
def rootOf (path : String) : String :=
  match path.toList.takeWhile (· == '/') with
  | [] => ""
  | ['/', '/'] => "//"
  | _ => "/"

/-- The path of the folder for a path. -/
def reportFolder (path : String) : String :=
  let names := ((parts path).filter fun part => !staysHere part).dropLast
  match rootOf path, names with
  | "", [] => "."
  | root, names => root ++ "/".intercalate names

/-- The fault of saving into a folder that cannot be saved into. -/
def folderFault? (store : Store) (folder : String) : Option Fault :=
  match store.find folder with
  | .folder _ | .outside => none
  | .tooLong => some (Place.tooLong.fault folder)
  | _ => some (.noFolder folder)

/-- Saves the text of a report. -/
def saveReport (store : Store) (path text : String) : Except Fault Store :=
  match store.folderFault? (reportFolder path) with
  | some fault => .error fault
  | none => store.write path text

end LookmlProject.Store
