import LookmlProject.CommandLine.Switch
import LookmlProject.Decimal.Whole

/-!
# Commands

The commands of the program with their switches, and the request that a command line makes.
-/

namespace LookmlProject.CommandLine

/-- What the program is asked to do. -/
inductive Command where
  /-- Clone the repository of the settings. -/
  | clone
  /-- Draw the graph of the documents, with sizes in place of those of the settings. -/
  | draw (imageWidth imageHeight nodeSize : Option Int)
  /-- Animate the history of a repository. -/
  | animate (repository : String) (branch : Option String) (directory gif : String)
  /-- Lint the documents. -/
  | lint
  /-- Update the descriptions of a document. -/
  | update (infile outfile : String)
deriving Repr, DecidableEq

/-- A request: patterns for documents in place of those of the settings, and a command. -/
structure Request where
  globs : List String
  command : Option Command
deriving Repr, DecidableEq

/-- The switch that asks for help. -/
def helpSwitch : Switch := ⟨["-h", "--help"], .help, false⟩

/-- The switches before a command. -/
def mainSwitches : List Switch :=
  [helpSwitch, ⟨["-v", "--verbose"], .flag, false⟩, ⟨["--glob"], .text, false⟩]

/-- A switch that takes a whole number. -/
def wholeSwitch (name : String) : Switch :=
  ⟨[name], .checked fun cs => (Decimal.readWhole cs).isSome, false⟩

/-- A switch that takes a text. -/
def textSwitch (name : String) (required : Bool) : Switch := ⟨[name], .text, required⟩

/-- The switches of a command, if there is such a command. -/
def switchesOf? : String → Option (List Switch)
  | "git-clone" => some [helpSwitch]
  | "grapher" =>
    some [helpSwitch, wholeSwitch "--image-width", wholeSwitch "--image-height",
      wholeSwitch "--node-size"]
  | "graph-animator" =>
    some [helpSwitch, textSwitch "--path-to-repo" true, textSwitch "--branch" false,
      textSwitch "--image-directory" true, textSwitch "--gif-filename" true]
  | "linter" => some [helpSwitch]
  | "updater" => some [helpSwitch, textSwitch "--infile" true, textSwitch "--outfile" true]
  | _ => none

/-- The command of the given name. -/
def commandOf? (name : String) (arguments : Arguments) : Option Command :=
  let text (key : String) : String := (arguments.last? key).getD ""
  let whole? (key : String) : Option Int :=
    (arguments.last? key).bind fun s => Decimal.readWhole s.toList
  match name with
  | "git-clone" => some .clone
  | "grapher" =>
    some (.draw (whole? "--image-width") (whole? "--image-height") (whole? "--node-size"))
  | "graph-animator" =>
    some (.animate (text "--path-to-repo") (arguments.last? "--branch")
      (text "--image-directory") (text "--gif-filename"))
  | "linter" => some .lint
  | "updater" => some (.update (text "--infile") (text "--outfile"))
  | _ => none

/-- The request that a command line makes. -/
def request (words : List String) : Except Fault Request := do
  let main ← parse mainSwitches true words
  let globs := main.arguments.all "--glob"
  match main.command with
  | [] => if main.stray then .error misuse else return ⟨globs, none⟩
  | name :: rest =>
    match switchesOf? name with
    | none => .error misuse
    | some switches =>
      let found ← parse switches false rest
      if main.stray || found.stray then .error misuse
      else return ⟨globs, commandOf? name found.arguments⟩

end LookmlProject.CommandLine
