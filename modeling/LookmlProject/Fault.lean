/-!
# Faults

The causes for which a piece of work on a LookML project stops.  A cause says what went wrong in the
words of the project; `Fault.message` gives its wording.
-/

namespace LookmlProject

/-- Why a piece of work stops. -/
inductive Fault where
  /-- There is no file under the path. -/
  | missingFile (path : String)
  /-- The file name has no ending that LookML uses. -/
  | unsupportedName (path : String)
  /-- A folder was read as if it were a file. -/
  | folderRead
  /-- A file was written into a folder that does not exist. -/
  | folderMissing
  /-- The path of a file to write passes through another file. -/
  | fileInPath
  /-- A folder was to be made where something is already. -/
  | placeTaken
  /-- A path, or a name in it, is too long; the wording shows the path. -/
  | nameTooLong (path : String)
  /-- A number was taken for an open stream. -/
  | noStream
  /-- A report was to be saved into a folder that does not exist. -/
  | noFolder (folder : String)
  /-- No LookML expression starts at the given token. -/
  | noExpression (token : String) (line : Nat)
  /-- A key occurs twice in one block. -/
  | repeatedKey (key : String)
  /-- The text ends inside a quoted text or an expression. -/
  | unfinishedText
  /-- A semicolon stands alone. -/
  | loneSemicolon
  /-- A record has no entry under the key. -/
  | missingKey (key : String)
  /-- A record was asked for a position or another key that is no text. -/
  | missingEntry
  /-- A value was used in a way that its shape does not allow. -/
  | wrongShape
  /-- A value lacks the member that was asked of it. -/
  | noMember
  /-- A position lies outside a list or a text. -/
  | outOfRange
  /-- A text or number does not denote what was asked of it. -/
  | badValue
  /-- A number is too large for a moment in time. -/
  | tooLarge
  /-- A moment lies in a year that cannot be counted. -/
  | noSuchYear
  /-- A required condition does not hold. -/
  | violated
  /-- No rule is registered under the key. -/
  | unregistered (key : String)
  /-- The lexicon rule has no list of phrases. -/
  | phrasesMissing
  /-- The phrases of the lexicon rule are no list. -/
  | phrasesNotList
  /-- A document declares nothing that belongs in the graph. -/
  | nothingDeclared (baseName kind path : String)
  /-- A value that cannot be a node was among the nodes of a picture. -/
  | notNode
  /-- No document was found; the wording shows the patterns. -/
  | noDocuments (patterns : String)
  /-- The layout program for drawings is not there. -/
  | layoutMissing
  /-- Updates apply to view documents only. -/
  | notView (kind : String)
  /-- Updates apply to documents with a single view. -/
  | severalViews (count : Nat)
  /-- The kind of a definition is not one of the kinds of fields. -/
  | unknownFieldKind (kind : String)
  /-- The document has no field of that kind and name. -/
  | fieldMissing (kind name : String)
  /-- A database cannot be opened. -/
  | noDatabase
  /-- A database has no table of definitions. -/
  | noDefinitions
  /-- A CSV text has no header. -/
  | emptyTable
  /-- A CSV text cannot be divided into records. -/
  | badTable
  /-- A base64 text is cut short. -/
  | badBase64
  /-- Bytes are not UTF-8. -/
  | badEncoding
  /-- A text is not JSON. -/
  | badJson
  /-- The command line asks to leave with the exit code. -/
  | exit (code : Nat)
  /-- A command did not end in time. -/
  | timeout
  /-- A command does not exist. -/
  | commandMissing
deriving Repr, DecidableEq

/-- The wording of a cause. -/
def Fault.message : Fault → String
  | .missingFile path => "Filename does not exist: " ++ path
  | .unsupportedName path => "Unsupported filename " ++ path
  | .folderRead => "a folder cannot be read as a file"
  | .folderMissing => "the folder of the file does not exist"
  | .fileInPath => "a part of the path is a file"
  | .placeTaken => "the place is taken"
  | .nameTooLong path => "[Errno 36] File name too long: " ++ path
  | .noStream => "[Errno 9] Bad file descriptor"
  | .noFolder folder => "Cannot save file into a non-existent directory: '" ++ folder ++ "'"
  | .noExpression token line =>
    "Unable to find a matching expression for '" ++ token ++ "' on line " ++ toString line
  | .repeatedKey key =>
    "Key \"" ++ key ++ "\" already exists in tree and would overwrite the existing value."
  | .unfinishedText => "the text ends too early"
  | .loneSemicolon => "a semicolon stands alone"
  | .missingKey key => key
  | .missingEntry => "no such entry"
  | .wrongShape => "a value has the wrong shape"
  | .noMember => "a value lacks a member"
  | .outOfRange => "a position is out of range"
  | .badValue => "a value cannot be read"
  | .tooLarge => "a number is too large"
  | .noSuchYear => "[Errno 75] Value too large for defined data type"
  | .violated => "a required condition does not hold"
  | .unregistered key => "Key not found " ++ key
  | .phrasesMissing => "Missing required key 'phrases'"
  | .phrasesNotList => "Error with phrases list. Should be a list"
  | .nothingDeclared _ _ path => "No models, views, or explores? " ++ path
  | .notNode => "a value cannot be a node"
  | .noDocuments patterns => "No LookML Files were found using glob strings: " ++ patterns
  | .layoutMissing => "Requires Graphviz and either PyGraphviz or pydot"
  | .notView kind => "Only views are supported. This is type " ++ kind
  | .severalViews count => "There should only 1 view. We found " ++ toString count
  | .unknownFieldKind kind => "Unrecognized header_type " ++ kind
  | .fieldMissing kind name => "Did not find " ++ kind ++ " " ++ name
  | .noDatabase => "unable to open database file"
  | .noDefinitions => "no such table: definitions"
  | .emptyTable => "the table has no header"
  | .badTable => "the table cannot be divided into records"
  | .badBase64 => "the base64 text is cut short"
  | .badEncoding => "the bytes are not UTF-8"
  | .badJson => "the text is not JSON"
  | .exit code => toString code
  | .timeout => "the command did not end in time"
  | .commandMissing => "the command does not exist"

/-- Two pieces of work in a row come to an end if both of them do. -/
theorem bind_eq_ok {α β : Type} {x : Except Fault α} {f : α → Except Fault β} {b : β} :
    (x >>= f) = .ok b ↔ ∃ a, x = .ok a ∧ f a = .ok b := by
  cases x with
  | error fault =>
      constructor
      · intro h
        exact nomatch h
      · rintro ⟨_, h, _⟩
        exact nomatch h
  | ok a =>
      constructor
      · intro h
        exact ⟨a, rfl, h⟩
      · rintro ⟨_, h, h'⟩
        cases h
        exact h'

end LookmlProject
