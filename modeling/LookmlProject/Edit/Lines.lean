import LookmlProject.Text.Blank
import LookmlProject.Text.Search

/-!
# Edits of description lines

A LookML file is edited as a list of lines, so that all that an edit does not touch stays as it is.
A field is found by its header, the line that has its kind, a colon and its name.  Its description
is either added right below the header, or put in place of the old one:

- `add` writes the description below every header of the field;
- `substitute` walks through the lines in one of three modes (`Mode`): it copies lines up to a
  header, copies on until it meets the old description, and drops as many lines as that has.  The
  line after the dropped ones stands below the new description.
-/

namespace LookmlProject.Edit

/-- A line of a file with the line feed that ends it. -/
abbrev Line := List Char

/-- Whether a line is the header of the field: its kind and a colon come first, and between them and
an opening brace stands its name. -/
def isHeader (kind name : List Char) (line : Line) : Bool :=
  let start := kind ++ [':']
  start.isPrefixOf (Text.strip line) &&
    Text.strip (Text.before ['\x7b'] (Text.before start (Text.after start line))) == name

/-- The comment at the end of a description line. -/
def comment : List Char := "# programmatically added by LookML modifier".toList

/-- The line that describes a field. -/
def descriptionLine (text : List Char) : Line :=
  "    description: \"".toList ++ text ++ "\"\t".toList ++ comment ++ ['\n']

/-- Whether a line starts with the word for a description. -/
def isDescription (line : Line) : Bool := "description".toList.isPrefixOf (Text.strip line)

/-- Adds a description below each header of a field. -/
def add (kind name text : List Char) (lines : List Line) : List Line :=
  lines.flatMap fun line =>
    if isHeader kind name line then [line, descriptionLine text] else [line]

/-- Where a substitution stands. -/
inductive Mode where
  /-- No header has come since the last substitution. -/
  | copying
  /-- A header has come, and its description has not. -/
  | seeking
  /-- The old description has come, and so many of its lines are left. -/
  | dropping (left : Nat)
deriving DecidableEq, Repr

/-- Puts a description in place of the old one, which has `count` lines, below each header of a
field, from the given mode on. -/
def substituteFrom (count : Nat) (kind name text : List Char) : Mode → List Line → List Line
  | _, [] => []
  | .copying, line :: rest =>
    line :: substituteFrom count kind name text
      (if isHeader kind name line then .seeking else .copying) rest
  | .seeking, line :: rest =>
    if isDescription line then
      match count with
      | 0 => descriptionLine text :: line :: substituteFrom count kind name text .copying rest
      | left + 1 => substituteFrom count kind name text (.dropping left) rest
    else line :: substituteFrom count kind name text .seeking rest
  | .dropping 0, line :: rest =>
    descriptionLine text :: line :: substituteFrom count kind name text .copying rest
  | .dropping (left + 1), _ :: rest => substituteFrom count kind name text (.dropping left) rest

/-- Puts a description in place of the old one, which has `count` lines. -/
def substitute (count : Nat) (kind name text : List Char) (lines : List Line) : List Line :=
  substituteFrom count kind name text .copying lines

/-- Whether a substitution gets to an old description. -/
def meetsDescription (kind name : List Char) (lines : List Line) : Bool :=
  ((lines.dropWhile fun line => !isHeader kind name line).drop 1).any isDescription

/-- Describes a field: `present` says whether it has a description, which then has `count` lines. -/
def modify (count : Nat) (kind name text : List Char) (present : Bool) (lines : List Line) :
    List Line :=
  if present then substitute count kind name text lines else add kind name text lines

/-- The text of lines. -/
def join (lines : List Line) : String := String.ofList lines.flatten

end LookmlProject.Edit
