/-!
# Searching a text

Whether a text starts with, ends with or contains another, and the parts before and after the first
place where it does.
-/

namespace LookmlProject.Text

/-- Whether `part` stands somewhere in a text; the empty text stands in every text. -/
def occurs (part : List Char) : List Char → Bool
  | [] => part.isEmpty
  | c :: rest => part.isPrefixOf (c :: rest) || occurs part rest

/-- The text before the first place where `mark` stands, and the whole text if it stands nowhere. -/
def before (mark : List Char) : List Char → List Char
  | [] => []
  | c :: rest => if mark.isPrefixOf (c :: rest) then [] else c :: before mark rest

/-- The text after the first place where `mark` stands, and the empty text if it stands nowhere. -/
def after (mark : List Char) : List Char → List Char
  | [] => []
  | c :: rest =>
    if mark.isPrefixOf (c :: rest) then (c :: rest).drop mark.length else after mark rest

/-- Replaces each occurrence of one character. -/
def swapChar (old new : Char) (cs : List Char) : List Char :=
  cs.map fun c => if c = old then new else c

/-- Cuts a text at each occurrence of a character, which is left out. -/
def splitChar (mark : Char) : List Char → List (List Char)
  | [] => [[]]
  | c :: rest =>
    if c = mark then [] :: splitChar mark rest
    else
      match splitChar mark rest with
      | [] => [[c]]
      | part :: parts => (c :: part) :: parts

/-- Joins texts with a separator between neighbours. -/
def joinWith (separator : List Char) : List (List Char) → List Char
  | [] => []
  | [part] => part
  | part :: parts => part ++ separator ++ joinWith separator parts

end LookmlProject.Text
