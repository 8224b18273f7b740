/-!
# Lines of a text

A text file may end its lines by a line feed, a carriage return or both; once read, every line ends
by a line feed, and only the last may lack it.  What is printed is shown line by line too, but there
every character that breaks lines ends one.
-/

namespace LookmlProject.Text

/-- Turns each carriage return, with the line feed that may follow it, into one line feed. -/
def unifyNewlines : List Char → List Char
  | [] => []
  | '\r' :: '\n' :: rest => '\n' :: unifyNewlines rest
  | '\r' :: rest => '\n' :: unifyNewlines rest
  | c :: rest => c :: unifyNewlines rest

/-- The lines of a text, each with the line feed that ends it. -/
def lines : List Char → List (List Char)
  | [] => []
  | c :: rest =>
    if c = '\n' then ['\n'] :: lines rest
    else
      match lines rest with
      | [] => [[c]]
      | line :: more => (c :: line) :: more

/-- A character that breaks lines: the controls from line feed to carriage return, the separators
of files, groups and records, the next-line control, and the separators of lines and paragraphs. -/
def breaksLine (c : Char) : Bool :=
  let n := c.toNat
  (10 ≤ n && n ≤ 13) || (28 ≤ n && n ≤ 30) || n == 0x85 || n == 0x2028 || n == 0x2029

/-- The lines of a printed text, without what ends them. -/
def splitLines : List Char → List (List Char)
  | [] => []
  | '\r' :: '\n' :: rest => [] :: splitLines rest
  | c :: rest =>
    if breaksLine c then [] :: splitLines rest
    else
      match splitLines rest with
      | [] => [[c]]
      | line :: more => (c :: line) :: more

/-- The lines that are shown when texts are printed one after the other. -/
def printedLines (texts : List String) : List String :=
  (splitLines (texts.flatMap fun t => t.toList ++ ['\n'])).map String.ofList

end LookmlProject.Text
