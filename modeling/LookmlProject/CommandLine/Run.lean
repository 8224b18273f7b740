import LookmlProject.CommandLine.Command
import LookmlProject.Graph.Project

/-!
# Running commands

A command works on the settings and the store and leaves orders for the outside: the program to
start, and the drawing to make.  Linting, updating and animating need settings of their own, which a
command line does not give, so these commands stop at once.
-/

namespace LookmlProject.CommandLine

/-- How a program that was started ends. -/
inductive Ending where
  | done
  | failed
  | timedOut
  | absent
deriving DecidableEq, Repr

/-- The settings and the store after a command, its orders, and the fault that it ended with. -/
structure Outcome where
  settings : Settings
  store : Store
  started : Option (List String) := none
  drawing : Option Drawing := none
  fault : Option Fault := none

/-- The words that start the program which clones the repository of the settings. -/
def cloneWords (settings : Settings) : Except Fault (List String) := do
  let git := settings.get "git"
  let url ← git.lookup "url"
  let folder ← git.lookup "folder"
  let program := if (settings.get "use_hub").truthy then "hub" else "git"
  return [program, "clone", ← url.asText, ← folder.asText]

/-- The fault that follows from the end of a program; a failure of its own is none. -/
def Ending.fault? : Ending → Option Fault
  | .done | .failed => none
  | .timedOut => some .timeout
  | .absent => some .commandMissing

/-- Clones the repository of the settings. -/
def clone (settings : Settings) (store : Store) (ending : Ending) : Outcome :=
  match cloneWords settings with
  | .error fault => { settings, store, fault := some fault }
  | .ok words => { settings, store, started := some words, fault := ending.fault? }

/-- Puts a size into the options of drawings; zero and no size leave them as they are. -/
def putSize (key : String) (size : Option Int) (settings : Settings) : Except Fault Settings :=
  match size with
  | none | some 0 => .ok settings
  | some n => do
    match ← (settings.get "grapher").lookup "options" with
    | .record options =>
      settings.setEntry "grapher" "options" (.record (Value.Fields.set options key (.int n)))
    | _ => .error .wrongShape

/-- Draws the graph of the documents. -/
def draw (settings : Settings) (store : Store) (day : String)
    (imageWidth imageHeight nodeSize : Option Int) : Outcome :=
  let sized := putSize "image_height" imageHeight settings >>= putSize "image_width" imageWidth >>=
    putSize "node_size" nodeSize
  match sized with
  | .error fault => { settings, store, fault := some fault }
  | .ok settings =>
    match (Graph.run Graph.empty store settings day).drawing with
    | .error fault => { settings, store, fault := some fault }
    | .ok drawing => { settings, store, drawing := some drawing }

/-- Makes the folder for the pictures of an animation, unless something is there, and stops. -/
def animate (settings : Settings) (store : Store) (directory : String) : Outcome :=
  if store.contains directory then { settings, store, fault := some .wrongShape }
  else
    match store.makeFolders directory with
    | (store, some fault) => { settings, store, fault := some fault }
    | (store, none) => { settings, store, fault := some .wrongShape }

/-- Meets a request. -/
def meet (settings : Settings) (store : Store) (day : String) (ending : Ending)
    (request : Request) : Outcome :=
  let settings :=
    if request.globs.isEmpty then settings
    else settings.set "infile_globs" (.list (request.globs.map Value.text))
  match request.command with
  | none => { settings, store, fault := some .noMember }
  | some .clone => clone settings store ending
  | some (.draw imageWidth imageHeight nodeSize) =>
    draw settings store day imageWidth imageHeight nodeSize
  | some (.animate _ _ directory _) => animate settings store directory
  | some .lint | some (.update _ _) => { settings, store, fault := some .wrongShape }

/-- Runs a command line. -/
def run (settings : Settings) (store : Store) (day : String) (ending : Ending)
    (words : List String) : Outcome :=
  match request words with
  | .error fault => { settings, store, fault := some fault }
  | .ok request => meet settings store day ending request

end LookmlProject.CommandLine
