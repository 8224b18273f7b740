import LookmlProject.Fault
import LookmlProject.Text.Quoted
import LookmlProject.Text.Search

/-!
# The store

The files and folders of a project, below one working folder.  A path is a text whose parts are
divided by slashes; `.` stays in a folder, `..` leaves it, and empty parts say nothing.  No path has
the character zero or more than 4095 bytes, and no name in it more than 255.  Of what lies outside
the working folder only the folders that lead to it are known.
-/

namespace LookmlProject

/-- The names of the folders that lead to a place, and its own name. -/
abbrev Route := List String

/-- Files with their texts, and folders. -/
structure Store where
  files : List (Route × String) := []
  folders : List Route := []

namespace Store

/-- The store without files and folders. -/
def empty : Store := ⟨[], []⟩

/-- What a path leads to. -/
inductive Place where
  /-- A folder of the store. -/
  | folder (route : Route)
  /-- A file with its text. -/
  | file (route : Route) (text : String)
  /-- Nothing yet, in a folder that exists. -/
  | free (route : Route)
  /-- Nothing, for want of a folder on the way. -/
  | broken
  /-- Nothing, for a file stands on the way. -/
  | blocked
  /-- A folder outside the store. -/
  | outside
  /-- Nothing, outside the store; `direct` says that the folder for it is known. -/
  | unknown (direct : Bool)
  /-- Nothing, for the path or a name in it is too long. -/
  | tooLong
  /-- Nothing, for the path has the character zero. -/
  | unusable

/-- Whether a route leads to a folder. -/
def isFolder (store : Store) (route : Route) : Bool :=
  route.isEmpty || store.folders.contains route

/-- The text of the file at a route. -/
def textAt? (store : Store) (route : Route) : Option String :=
  (store.files.find? fun f => f.1 == route).map (·.2)

/-- Whether a part of a path stays in its folder. -/
def staysHere (part : String) : Bool := part == "" || part == "."

/-- Whether a name has too many bytes. -/
def isLongName (name : String) : Bool := 255 < name.utf8ByteSize

/-- Follows the parts of a path from outside the store. -/
def walkOutside : List String → Place
  | [] => .outside
  | part :: rest =>
    if staysHere part || part == ".." then walkOutside rest
    else if isLongName part then .tooLong
    else .unknown rest.isEmpty

/-- Follows the parts of a path from a folder. -/
def walk (store : Store) (here : Route) : List String → Place
  | [] => .folder here
  | part :: rest =>
    if staysHere part then store.walk here rest
    else if part == ".." then
      match here with
      | [] => walkOutside rest
      | _ => store.walk here.dropLast rest
    else if isLongName part then .tooLong
    else
      let there := here ++ [part]
      if store.isFolder there then store.walk there rest
      else
        match store.textAt? there with
        | some text => if rest.isEmpty then .file there text else .blocked
        | none => if rest.isEmpty then .free there else .broken

/-- The parts of a path. -/
def parts (path : String) : List String := (Text.splitChar '/' path.toList).map String.ofList

/-- Follows the parts of a path, from the working folder or, behind a slash, from outside. -/
def follow (store : Store) (path : String) (parts : List String) : Place :=
  if path.toList.contains '\x00' then .unusable
  else if 4095 < path.utf8ByteSize then .tooLong
  else
    match path.toList with
    | [] => .broken
    | '/' :: _ => walkOutside parts
    | _ => store.walk [] parts

/-- What a path leads to. -/
def find (store : Store) (path : String) : Place := store.follow path (parts path)

/-- Why nothing can be read from, or written to, a place. -/
def Place.fault (path : String) : Place → Fault
  | .folder _ | .file _ _ | .outside => .folderRead
  | .free _ | .broken | .unknown _ => .folderMissing
  | .blocked => .fileInPath
  | .tooLong => .nameTooLong (String.ofList (Text.quoted path.toList))
  | .unusable => .badValue

/-- Whether a path leads to a file or a folder. -/
def contains (store : Store) (path : String) : Bool :=
  match store.find path with
  | .folder _ | .file _ _ | .outside => true
  | _ => false

/-- Whether a path leads to a folder. -/
def containsFolder (store : Store) (path : String) : Bool :=
  match store.find path with
  | .folder _ | .outside => true
  | _ => false

/-- The text of the file at a path. -/
def read (store : Store) (path : String) : Except Fault String :=
  match store.find path with
  | .file _ text => .ok text
  | place => .error (place.fault path)

/-- Puts a text at a route, in place of the one that was there. -/
def setText : List (Route × String) → Route → String → List (Route × String)
  | [], route, text => [(route, text)]
  | (r, t) :: rest, route, text =>
    if r = route then (r, text) :: rest else (r, t) :: setText rest route text

/-- The parts of a path without the empty ones at its end. -/
def trimmedParts (path : String) : List String :=
  ((parts path).reverse.dropWhile (· == "")).reverse

/-- A part of a path that is the name of something. -/
def isName (part : String) : Bool := !staysHere part && part != ".."

/-- What the parts of a path before its last name lead to. -/
def parent (store : Store) (path : String) : Place :=
  match store.follow path (trimmedParts path).dropLast with
  | .file _ _ => .blocked
  | .free _ => .broken
  | place => place

/-- Where a text for a path is written.  A name with a slash behind it is a folder, whether there is
one or not. -/
def target (store : Store) (path : String) : Place :=
  if path.toList.getLast? == some '/' && (trimmedParts path).getLast?.any isName then
    match store.parent path with
    | .unknown _ => .broken
    | place => place
  else store.find path

/-- Writes a text to the file at a path.  What is written outside the store leaves no trace in it. -/
def write (store : Store) (path text : String) : Except Fault Store :=
  match store.target path with
  | .file route _ | .free route => .ok { store with files := setText store.files route text }
  | .unknown true => .ok store
  | place => .error (place.fault path)

/-- The part of a path after its last slash. -/
def baseName (path : String) : String :=
  String.ofList (path.toList.reverse.takeWhile (· != '/')).reverse

/-- The part of a path up to and with its last slash. -/
def folderPart (path : String) : String :=
  String.ofList (path.toList.reverse.dropWhile (· != '/')).reverse

/-- The folder part of a path without the slashes at its end, unless it has nothing else. -/
def folderOf (path : String) : String :=
  let folder := (folderPart path).toList
  match folder.reverse.dropWhile (· == '/') with
  | [] => String.ofList folder
  | rest => String.ofList rest.reverse

/-- Makes one folder. -/
def makeFolder (store : Store) (path : String) : Except Fault Store :=
  match (trimmedParts path).getLast? with
  | none => .error (if path.isEmpty then .folderMissing else .placeTaken)
  | some name =>
    match store.parent path with
    | .folder here =>
      let there := here ++ [name]
      if !isName name || store.isFolder there || (store.textAt? there).isSome then
        .error .placeTaken
      else if isLongName name then .error (Place.tooLong.fault path)
      else .ok { store with folders := store.folders ++ [there] }
    | .outside => if isName name then .ok store else .error .placeTaken
    | .unknown _ => .ok store
    | place => .error (place.fault path)

/-- Makes a folder together with the folders that lead to it, and gives the store as it is when a
fault ends the work.  The number bounds the folders. -/
def makeFoldersWithin : Nat → Store → String → Store × Option Fault
  | 0, store, _ => (store, none)
  | fuel + 1, store, path =>
    let last (store : Store) : Store × Option Fault :=
      match store.makeFolder path with
      | .ok after => (after, none)
      | .error fault => (store, some fault)
    let whole := if (baseName path).isEmpty then folderOf path else path
    let head := folderOf whole
    let tail := baseName whole
    if head.isEmpty || tail.isEmpty || store.contains head then last store
    else
      match makeFoldersWithin fuel store head with
      | (after, none) | (after, some .placeTaken) =>
        if tail == "." then (after, none) else last after
      | stopped => stopped

/-- Makes a folder together with the folders that lead to it. -/
def makeFolders (store : Store) (path : String) : Store × Option Fault :=
  makeFoldersWithin (path.length + 1) store path

/-- Writes a file and makes the folders that lead to it. -/
def put (store : Store) (path text : String) : Except Fault Store :=
  match folderOf path with
  | "" => store.write path text
  | folder =>
    if store.contains folder then store.write path text
    else
      match store.makeFolders folder with
      | (after, none) | (after, some .placeTaken) => after.write path text
      | (_, some fault) => .error fault

/-- A path as a text with single slashes. -/
def pathOf (route : Route) : String := "/".intercalate route

/-- Joins two paths: an absolute one stands alone, and an empty one adds nothing but a slash. -/
def join (first second : String) : String :=
  match second.toList with
  | '/' :: _ => second
  | _ =>
    if first.isEmpty || first.toList.getLast? == some '/' then first ++ second
    else first ++ "/" ++ second

/-- The names in a folder. -/
def names (store : Store) (here : Route) : List String :=
  let inside (route : Route) : Option String :=
    if route.dropLast == here then route.getLast? else none
  store.folders.filterMap inside ++ store.files.filterMap fun f => inside f.1

end Store

end LookmlProject
