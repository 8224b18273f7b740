import LookmlProject.Fault

/-!
# Records of a CSV text

Commas divide the fields of a record and line ends the records.  A field that starts with a double
quote runs to the closing one, whatever stands in between; two quotes inside stand for one, and what
follows the closing quote belongs to the field as it stands.  Lines without a field, or with nothing
but blanks, are left out.

A line ends by a line feed, a carriage return or both.  Only what follows a carriage return tells
whether it ended the line alone, and three rules come from that:

* a comma behind the carriage return of a line that is left out is left out with it;
* a line that starts with blanks is read again from its start once it turns out to have a field;
* its start lies behind the last line feed or the last record that a carriage return ended, so lines
  between them that were left out are then read as records with an empty field.
-/

namespace LookmlProject.Csv

/-- Where the reader stands. -/
inductive Stage where
  /-- Before a line. -/
  | lineStart
  /-- In a line that has had nothing but blanks. -/
  | blankLine
  /-- Behind a carriage return that ended a line which is left out. -/
  | blankReturn
  /-- Before the first character of a field. -/
  | fieldStart
  /-- In a field without quotes, or behind the closing quote. -/
  | plain
  /-- Inside quotes. -/
  | quoted
  /-- Right behind a quote that was met inside quotes. -/
  | quoteMet
  /-- Behind a carriage return that ended a record. -/
  | returnMet
deriving DecidableEq, Repr

/-- Fields of a record. -/
abbrev Record := List (List Char)

/-- A reading in progress: the finished records, the finished fields of the current one and the
characters of the current field, each latest first, and the text from which a line that starts with
blanks is read again. -/
structure Draft where
  stage : Stage
  records : List Record
  fields : Record
  current : List Char
  back : List Char

namespace Draft

/-- The start of a reading. -/
def start (text : List Char) : Draft := ⟨.lineStart, [], [], [], text⟩

/-- The draft at another stage. -/
def goTo (draft : Draft) (stage : Stage) : Draft := { draft with stage := stage }

/-- The draft with one more character in the current field. -/
def push (draft : Draft) (stage : Stage) (c : Char) : Draft :=
  { draft with stage := stage, current := c :: draft.current }

/-- The draft with the current field finished. -/
def endField (draft : Draft) : Draft :=
  { draft with
    stage := .fieldStart, fields := draft.current.reverse :: draft.fields, current := [] }

/-- The draft with the current record finished. -/
def endRecord (draft : Draft) : Draft :=
  { draft with
    stage := .lineStart, records := draft.fields.reverse :: draft.records, fields := [] }

/-- The draft after a character of a field that is not inside quotes.  A quote opens the field only
at its start. -/
def take (draft : Draft) (c : Char) : Draft :=
  if c = '\n' then draft.endField.endRecord
  else if c = '\r' then draft.endField.goTo .returnMet
  else if c = ',' then draft.endField
  else draft.push .plain c

/-- A blank at the start of a line. -/
def isLineBlank (c : Char) : Bool := c == ' ' || c == '\t'

/-- The draft after a character, and the text to go on with. -/
def step (draft : Draft) (c : Char) (rest : List Char) : Draft × List Char :=
  let draft := if c = '\n' then { draft with back := rest } else draft
  match draft.stage with
  | .lineStart =>
    if c = '\n' then (draft, rest)
    else if c = '\r' then (draft.goTo .blankReturn, rest)
    else if isLineBlank c then (draft.goTo .blankLine, rest)
    else (draft.goTo .fieldStart, c :: rest)
  | .blankLine =>
    if c = '\n' then (draft.goTo .lineStart, rest)
    else if c = '\r' then (draft.goTo .blankReturn, rest)
    else if isLineBlank c then (draft, rest)
    else (draft.goTo .fieldStart, draft.back)
  | .blankReturn =>
    if c = '\n' ∨ c = ',' then (draft.goTo .lineStart, rest)
    else (draft.goTo .lineStart, c :: rest)
  | .fieldStart => if c = '"' then (draft.goTo .quoted, rest) else (draft.take c, rest)
  | .plain => (draft.take c, rest)
  | .quoted => if c = '"' then (draft.goTo .quoteMet, rest) else (draft.push .quoted c, rest)
  | .quoteMet => if c = '"' then (draft.push .quoted c, rest) else (draft.take c, rest)
  | .returnMet =>
    if c = '\n' then (draft.endRecord, rest)
    else if c = ',' then (draft.endRecord.endField, rest)
    else ({ draft.endRecord with back := c :: rest }, c :: rest)

/-- The records at the end of a text.  A quote that is still open is a fault. -/
def finish (draft : Draft) : Except Fault (List Record) :=
  match draft.stage with
  | .lineStart | .blankLine | .blankReturn => .ok draft.records.reverse
  | .quoted => .error .badTable
  | .fieldStart | .plain | .quoteMet => .ok draft.endField.endRecord.records.reverse
  | .returnMet => .ok draft.endRecord.records.reverse

/-- Reads a text; the number bounds the steps. -/
def run : Nat → Draft → List Char → Draft
  | 0, draft, _ => draft
  | _ + 1, draft, [] => draft
  | fuel + 1, draft, c :: rest =>
    let next := draft.step c rest
    run fuel next.1 next.2

end Draft

/-- The part of a field before a NUL. -/
def untilNul (field : List Char) : List Char := field.takeWhile fun c => c.toNat != 0

/-- The records of a CSV text; a byte order mark in front is left out.  Every character is read at
most once for each place where a line is read again, and once more where a line starts. -/
def records (cs : List Char) : Except Fault (List Record) :=
  let body := match cs with
    | c :: rest => if c.toNat = 0xFEFF then rest else cs
    | [] => []
  (List.map (List.map untilNul)) <$>
    (Draft.run (2 * (body.length + 1) * (body.length + 1)) (.start body) body).finish

end LookmlProject.Csv
