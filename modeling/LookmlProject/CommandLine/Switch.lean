import LookmlProject.Fault
import LookmlProject.Text.Digit
import LookmlProject.Text.Search

/-!
# Switches of a command line

A word of a command line is a switch if it starts with a dash and is no negative number.  A switch
may be shortened as long as it is clear which one is meant, its argument may follow an equals sign,
and flags of one letter may share one dash.

- `read` tells what each word of a command line is;
- `walk` goes through the words and collects what the switches say.

Whatever is wrong with a command line ends it with the exit code `usageCode`.
-/

namespace LookmlProject.CommandLine

/-- What a switch does. -/
inductive SwitchKind where
  /-- Asks for help, which ends the program. -/
  | help
  /-- Stands alone. -/
  | flag
  /-- Takes a text. -/
  | text
  /-- Takes a text that the test accepts. -/
  | checked (accepts : List Char → Bool)

/-- A switch by its names. -/
structure Switch where
  names : List String
  kind : SwitchKind
  required : Bool := false

/-- The exit code for a command line that cannot be read. -/
def usageCode : Nat := 2

/-- A fault in the command line. -/
def misuse : Fault := .exit usageCode

/-- The name under which the argument of a switch is kept. -/
def Switch.key (switch : Switch) : String := switch.names.getLastD ""

/-- Whether a switch takes an argument. -/
def Switch.takesArgument (switch : Switch) : Bool :=
  match switch.kind with
  | .help | .flag => false
  | .text | .checked _ => true

/-- What a word of a command line is. -/
inductive Word where
  /-- No switch. -/
  | plain
  /-- Two dashes, behind which there are no switches. -/
  | dashes
  /-- A switch with the text that is attached to it, if there is one. -/
  | switch (switch : Switch) (attached : Option (List Char))
  /-- A switch that does not exist. -/
  | unknown

/-- The names of switches, each with its switch. -/
def byName (switches : List Switch) : List (List Char × Switch) :=
  switches.flatMap fun s => s.names.map fun n => (n.toList, s)

/-- The part of a word before an equals sign, and the part behind it if there is one. -/
def splitEquals (word : List Char) : List Char × Option (List Char) :=
  (word.takeWhile (· != '='),
    match word.dropWhile (· != '=') with
    | [] => none
    | _ :: rest => some rest)

/-- Whether a word is a negative number. -/
def isNegativeNumber (word : List Char) : Bool :=
  let digits (cs : List Char) : Bool := cs.all fun c => (Text.digit? c).isSome
  let body (cs : List Char) : List Char := if cs.getLast? == some '\n' then cs.dropLast else cs
  match word with
  | '-' :: rest =>
    let number := body rest
    let whole := number.takeWhile (· != '.')
    match number.dropWhile (· != '.') with
    | [] => digits whole && !whole.isEmpty
    | _ :: fraction => digits whole && digits fraction && !fraction.isEmpty
  | _ => false

/-- The switches that a word may mean by a shortened name, or by a flag with something attached. -/
def candidates (switches : List Switch) (word : List Char) : List Word :=
  match word with
  | '-' :: '-' :: _ =>
    let (short, attached) := splitEquals word
    (byName switches).filterMap fun (name, s) =>
      if short.isPrefixOf name then some (.switch s attached) else none
  | _ =>
    (byName switches).filterMap fun (name, s) =>
      if name = word.take 2 then some (.switch s (some (word.drop 2)))
      else if word.isPrefixOf name then some (.switch s none)
      else none

/-- What a word is that starts with a dash and is no name of a switch. -/
def readInexact (switches : List Switch) (word : List Char) : Except Fault Word :=
  match candidates switches word with
  | _ :: _ :: _ => .error misuse
  | [found] => .ok found
  | [] => .ok (if isNegativeNumber word || word.contains ' ' then .plain else .unknown)

/-- What a word is. -/
def readWord (switches : List Switch) (word : List Char) : Except Fault Word :=
  match word with
  | '-' :: _ :: _ =>
    match (byName switches).lookup word with
    | some s => .ok (.switch s none)
    | none =>
      let (name, attached) := splitEquals word
      match (byName switches).lookup name with
      | some s => .ok (.switch s attached)
      | none => readInexact switches word
  | _ => .ok .plain

/-- What each word of a command line is. -/
def read (switches : List Switch) : List String → Except Fault (List (String × Word))
  | [] => .ok []
  | "--" :: rest => .ok (("--", .dashes) :: rest.map fun word => (word, .plain))
  | word :: rest => do
    let first ← readWord switches word.toList
    let others ← read switches rest
    return (word, first) :: others

/-- The arguments of switches in the order in which they came; a flag has an empty one. -/
abbrev Arguments := List (String × String)

/-- The argument that came last for a switch. -/
def Arguments.last? (arguments : Arguments) (key : String) : Option String :=
  arguments.reverse.lookup key

/-- All arguments for a switch. -/
def Arguments.all (arguments : Arguments) (key : String) : List String :=
  (arguments.filter (·.1 == key)).map (·.2)

/-- Obeys a switch. -/
def obey (switch : Switch) (argument : String) (arguments : Arguments) : Except Fault Arguments :=
  match switch.kind with
  | .help => .error (.exit 0)
  | .flag | .text => .ok (arguments ++ [(switch.key, argument)])
  | .checked accepts =>
    if accepts argument.toList then .ok (arguments ++ [(switch.key, argument)]) else .error misuse

/-- Whether a word has a single dash, so that letters may be attached to it. -/
def hasOneDash (word : String) : Bool :=
  match word.toList with
  | '-' :: c :: _ => c != '-'
  | _ => false

/-- The flags whose letters follow the first one behind a single dash; there has to be one for every
letter. -/
def flagsOf (switches : List Switch) (letters : List Char) : Except Fault (List Switch) :=
  letters.mapM fun c =>
    match (byName switches).lookup ['-', c] with
    | some flag => .ok flag
    | none => .error misuse

/-- Obeys flags in order. -/
def obeyAll (flags : List Switch) (arguments : Arguments) : Except Fault Arguments :=
  flags.foldlM (fun arguments flag => obey flag "" arguments) arguments

/-- What a command line comes to: the arguments of its switches, whether it has words of no use, and
the words from its command on. -/
structure Findings where
  arguments : Arguments := []
  stray : Bool := false
  command : List String := []

/-- Goes through the words of a command line.  If it has commands, the first plain word is one, and
all that follows belongs to it. -/
def walk (switches : List Switch) (hasCommands : Bool) :
    List (String × Word) → Findings → Except Fault Findings
  | [], found => .ok found
  | (word, .plain) :: rest, found =>
    if hasCommands then .ok { found with command := word :: rest.map (·.1) }
    else walk switches hasCommands rest { found with stray := true }
  | (_, .dashes) :: rest, found => walk switches false rest { found with stray := true }
  | (_, .unknown) :: rest, found => walk switches hasCommands rest { found with stray := true }
  | (word, .switch s (some text)) :: rest, found =>
    if s.takesArgument then do
      let arguments ← obey s (String.ofList text) found.arguments
      walk switches hasCommands rest { found with arguments := arguments }
    else if hasOneDash word && !text.isEmpty then do
      let arguments ← obeyAll (s :: (← flagsOf switches text)) found.arguments
      walk switches hasCommands rest { found with arguments := arguments }
    else .error misuse
  | (_, .switch s none) :: rest, found =>
    if s.takesArgument then
      match rest with
      | (argument, .plain) :: others => do
        let arguments ← obey s argument found.arguments
        walk switches hasCommands others { found with arguments := arguments }
      | _ => .error misuse
    else do
      let arguments ← obey s "" found.arguments
      walk switches hasCommands rest { found with arguments := arguments }

/-- Reads a command line; no required switch may be missing. -/
def parse (switches : List Switch) (hasCommands : Bool) (words : List String) :
    Except Fault Findings := do
  let found ← walk switches hasCommands (← read switches words) {}
  if switches.any fun s => s.required && (found.arguments.last? s.key).isNone then .error misuse
  else return found

end LookmlProject.CommandLine
