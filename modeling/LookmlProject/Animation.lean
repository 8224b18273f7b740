import LookmlProject.Calendar
import LookmlProject.Store.Basic
import LookmlProject.Value.Access
import LookmlProject.Value.Whole

/-!
# Animations of a project's history

For each commit of a repository, from the oldest to the newest, the commit is checked out, the
settings of a drawing are given a file and a title, and a picture is drawn into the file.  A drawing
that fails leaves a notice, and the work goes on.  An animation is put together from the files that
are there in the end.

The drawing that there is cannot be started with settings of its own, so that it fails for each
commit (`film`).  What any other would lead to is said by `filmWith`.
-/

namespace LookmlProject.Animation

/-- A commit: its id and its moment, as the history tells them. -/
structure Commit where
  id : Value
  date : Value

/-- What has been done for the commits so far: the settings and the store as they are now, the
commits that were checked out, the files meant for pictures, those of them that were drawn, the
notices, and the fault that ended the work. -/
structure Footage where
  settings : Value
  store : Store
  checkouts : List String := []
  files : List String := []
  drawn : List String := []
  notices : List String := []
  fault : Option Fault := none

/-- Nothing has been done. -/
def Footage.start (settings : Value) (store : Store) : Footage :=
  ⟨settings, store, [], [], [], [], none⟩

/-- The branch whose history is taken if no other is named. -/
def defaultBranch : String := "master"

/-- The file for the picture of the commit at a position. -/
def fileName (directory : Value) (position : Nat) : Except Fault String := do
  return (← directory.asText) ++ "/img" ++ toString position ++ ".png"

/-- Puts an entry of a record in place. -/
def putEntry (v : Value) (key : String) (entry : Value) : Except Fault Value :=
  match v with
  | .record fields => .ok (.record (Value.Fields.set fields key entry))
  | _ => .error .wrongShape

/-- Puts the title into the options of a drawing. -/
def putTitle (settings : Value) (title : String) : Except Fault Value := do
  putEntry settings "options" (← putEntry (← settings.lookup "options") "title" (.text title))

/-- Draws a picture into a file.  There is a notice where there is no picture, or the file cannot be
written. -/
def Footage.draw (footage : Footage) (file notice : String) (picture? : Option String) : Footage :=
  match picture?.bind fun picture => (footage.store.write file picture).toOption with
  | some store => { footage with store := store, drawn := footage.drawn ++ [file] }
  | none => { footage with notices := footage.notices ++ [notice] }

/-- The work on one commit, with the picture that the drawing makes of it. -/
def shoot (directory : Value) (picture? : Option String) (footage : Footage) (position : Nat)
    (commit : Commit) : Footage :=
  let stop (footage : Footage) (fault : Fault) : Footage := { footage with fault := some fault }
  match do return (← commit.id.asText, ← Calendar.write (← commit.date.toWhole)) with
  | .error fault => stop footage fault
  | .ok (id, title) =>
    let footage := { footage with checkouts := footage.checkouts ++ [id] }
    match fileName directory position with
    | .error fault => stop footage fault
    | .ok file =>
      match putEntry footage.settings "output" (.text file) with
      | .error fault => stop footage fault
      | .ok settings =>
        let footage := { footage with settings := settings }
        match putTitle settings title with
        | .error fault => stop footage fault
        | .ok settings =>
          let footage := { footage with settings := settings, files := footage.files ++ [file] }
          footage.draw file ("issue with " ++ toString position ++ "," ++ id) picture?

/-- The work on commits from a position on, up to the first fault.  The pictures are those that the
drawing makes at each position. -/
def shootFrom (directory : Value) (pictures : Nat → Option String) (footage : Footage)
    (position : Nat) : List Commit → Footage
  | [] => footage
  | commit :: rest =>
    let footage := shoot directory (pictures position) footage position commit
    match footage.fault with
    | some _ => footage
    | none => shootFrom directory pictures footage (position + 1) rest

/-- The work on a history, which is told from the newest commit to the oldest. -/
def filmWith (pictures : Nat → Option String) (store : Store) (settings directory : Value)
    (history : List Commit) : Footage :=
  shootFrom directory pictures (.start settings store) 0 history.reverse

/-- The work on a history with a drawing that always fails, so that no store is changed. -/
def film (settings directory : Value) (history : List Commit) : Footage :=
  filmWith (fun _ => none) .empty settings directory history

/-- The frames of an animation: the files that are there. -/
def frames (store : Store) (files : List String) : List String := files.filter store.contains

/-- What is said when an animation has been put together. -/
def announcement (file : Value) : Except Fault String := do
  return "Gif generated at " ++ (← file.asText)

end LookmlProject.Animation
