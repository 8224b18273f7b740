import LookmlProject.Lookml.Parser
import LookmlProject.Store.Basic
import LookmlProject.Text.Lines
import LookmlProject.Text.Word

/-!
# Documents

A document is a LookML file: its path, its kind and base name, which its file name tells, and its
entries.
-/

namespace LookmlProject.Lookml

/-- What a document is for. -/
inductive DocumentKind where
  | model
  | explore
  | view
deriving DecidableEq, Repr

/-- The name of a kind of documents. -/
def DocumentKind.name : DocumentKind → String
  | .model => "model"
  | .explore => "explore"
  | .view => "view"

/-- The kind that a file name tells: by its ending, or by `explore_` at its start.  Any other LookML
file counts as a view. -/
def DocumentKind.ofFileName? (name : List Char) : Option DocumentKind :=
  if ".model.lkml".toList.isSuffixOf name then some .model
  else if ".explore.lkml".toList.isSuffixOf name then some .explore
  else if ".lkml".toList.isSuffixOf name then
    if "explore_".toList.isPrefixOf name then some .explore else some .view
  else none

/-- The base name of a file name: without a last `.word.lkml`, and the whole name if it does not end
that way. -/
def baseNameOf (name : List Char) : List Char :=
  let ending := ".lkml".toList
  if ending.isSuffixOf name then
    let stem := (name.take (name.length - ending.length)).reverse
    match stem.takeWhile Text.isWord, stem.dropWhile Text.isWord with
    | _ :: _, '.' :: front => front.reverse
    | _, _ => name
  else name

/-- A LookML file with its entries. -/
structure Document where
  path : String
  fileName : String
  baseName : String
  kind : DocumentKind
  body : Value.Fields

/-- Reads the document at a path. -/
def Document.load (store : Store) (path : String) : Except Fault Document :=
  if store.contains path then
    let name := Store.baseName path
    match DocumentKind.ofFileName? name.toList with
    | none => .error (.unsupportedName path)
    | some kind =>
      match store.read path with
      | .error fault => .error fault
      | .ok text =>
        match Lookml.load (Text.unifyNewlines text.toList) with
        | .error fault => .error fault
        | .ok body => .ok ⟨path, name, String.ofList (baseNameOf name.toList), kind, body⟩
  else .error (.missingFile path)

/-- The views of a document. -/
def Document.views? (doc : Document) : Option Value := Value.Fields.get? doc.body "views"

/-- The explores of a document. -/
def Document.explores? (doc : Document) : Option Value := Value.Fields.get? doc.body "explores"

/-- Whether there are entries under a key: the value itself where it is empty or missing. -/
def presence : Option Value → Value
  | none => .null
  | some v => if v.truthy then .bool true else v

/-- Whether a document has views. -/
def Document.hasViews (doc : Document) : Bool := (presence doc.views?).truthy

/-- Whether a document has explores. -/
def Document.hasExplores (doc : Document) : Bool := (presence doc.explores?).truthy

/-- The views of a document, null where there are none. -/
def Document.views (doc : Document) : Value := doc.views?.getD .null

/-- The explores of a document, null where there are none. -/
def Document.explores (doc : Document) : Value := doc.explores?.getD .null

/-- A document with another value in place of the view at a position, where a negative one counts
from the end, or under a key. -/
def Document.setView (doc : Document) (key view : Value) : Document :=
  let put (views : Value) : Document := { doc with body := Value.Fields.set doc.body "views" views }
  let putAt (items : List Value) (position : Int) : Document :=
    let place := if position < 0 then position + items.length else position
    put (.list (items.set place.toNat view))
  match doc.views?, key with
  | some (.list items), .int n => putAt items n
  | some (.list items), .bool b => putAt items b.toNat
  | some (.record fields), .text k => put (.record (Value.Fields.set fields k view))
  | _, _ => doc

end LookmlProject.Lookml
