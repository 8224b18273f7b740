import LookmlProject.Lookml.Item
import LookmlProject.Lookml.Lexer
import LookmlProject.Text.Blank

/-!
# From tokens to items

A `Reader` takes tokens from the front of a stream.  It finds what it looks for, or finds nothing and
leaves the stream as it was, or stops with a fault.  Through all of it goes the deepest place at
which some reader found nothing, as the number of tokens left there: the message about an expression
that cannot be read names the token at that place.
-/

namespace LookmlProject.Lookml

/-- What a reader made of the tokens in front of it. -/
inductive Attempt (α : Type) where
  /-- Something was found; these tokens are left, and this few at the deepest failure so far. -/
  | found (result : α) (rest : List Token) (deepest : Nat)
  /-- Nothing was found. -/
  | absent (deepest : Nat)
  /-- Reading stops. -/
  | fault (cause : Fault)

/-- A reader of tokens, given the deepest failure so far. -/
def Reader (α : Type) := List Token → Nat → Attempt α

namespace Reader

variable {α β : Type}

/-- Finds a result without taking a token. -/
protected def pure (result : α) : Reader α := fun ts deepest => .found result ts deepest

/-- One reader after the other. -/
protected def bind (first : Reader α) (next : α → Reader β) : Reader β := fun ts deepest =>
  match first ts deepest with
  | .found result rest deepest => next result rest deepest
  | .absent deepest => .absent deepest
  | .fault cause => .fault cause

instance : Monad Reader where
  pure := Reader.pure
  bind := Reader.bind

/-- The stream after white space and comments. -/
def skip (ts : List Token) : List Token := ts.dropWhile (·.kind.isTrivia)

/-- Takes white space and comments. -/
def trivia : Reader Unit := fun ts deepest => .found () (skip ts) deepest

/-- Finds nothing, at this place. -/
def nothing : Reader α := fun ts deepest => .absent (min deepest ts.length)

/-- Takes a token of the given kind. -/
def expect (kind : Kind) : Reader Unit := fun ts deepest =>
  match ts with
  | [] => .absent 0
  | t :: rest => if t.kind = kind then .found () rest deepest else .absent (min deepest ts.length)

/-- Whether the next token that is neither white space nor comment passes a test. -/
def ahead (test : Kind → Bool) : Reader Bool := fun ts deepest =>
  match skip ts with
  | [] => .found false ts deepest
  | t :: _ => .found (test t.kind) ts deepest

/-- Tries a reader and goes on in any case. -/
def optional (reader : Reader α) : Reader (Option α) := fun ts deepest =>
  match reader ts deepest with
  | .found result rest deepest => .found (some result) rest deepest
  | .absent deepest => .found none ts deepest
  | .fault cause => .fault cause

/-- Tries a second reader where the first found nothing. -/
def orElse (first second : Reader α) : Reader α := fun ts deepest =>
  match first ts deepest with
  | .absent deepest => second ts deepest
  | other => other

/-- A literal. -/
def literal : Reader String := fun ts deepest =>
  match ts with
  | ⟨.literal text, _⟩ :: rest => .found (String.ofList text) rest deepest
  | _ => .absent (min deepest ts.length)

/-- A literal if one stands here. -/
def literal? : Reader (Option String) := fun ts deepest =>
  match ts with
  | ⟨.literal text, _⟩ :: rest => .found (some (String.ofList text)) rest deepest
  | _ => .found none ts deepest

/-- The key of an item with its colon. -/
def key : Reader String := do
  trivia
  let name ← literal
  trivia
  expect .colon
  trivia
  return name

/-- A value: a literal, a quoted text, or an expression without the white space around it. -/
def value : Reader String := fun ts deepest =>
  match ts with
  | ⟨.literal text, _⟩ :: rest => .found (String.ofList text) rest deepest
  | ⟨.quoted text, _⟩ :: rest => .found (String.ofList text) rest deepest
  | ⟨.expression text, _⟩ :: ⟨.expressionEnd, _⟩ :: rest =>
    .found (String.ofList (Text.strip text)) rest deepest
  | ⟨.expression _, _⟩ :: rest => .absent (min deepest rest.length)
  | _ => .absent (min deepest ts.length)

/-- A parameter with one value. -/
def pair : Reader (String × String) := do
  let name ← key
  let text ← value
  return (name, text)

/-- Literals and quoted texts are the values of plain lists. -/
def isListValue : Kind → Bool
  | .literal _ | .quoted _ => true
  | _ => false

/-- The bracket that closes a list. -/
def isListEnd (kind : Kind) : Bool := kind = .bracketClose

/-- A value of a plain list with the white space around it. -/
def listValue : Reader String := do
  if ← ahead isListValue then
    trivia
    let text ← value
    trivia
    return text
  else nothing

/-- A comma; the white space after it stays if the list ends there. -/
def comma : Reader Unit := do
  trivia
  expect .comma
  if ← ahead isListEnd then return ()
  else trivia

/-- Further elements of a list, each after a comma.  A comma may stand before the end. -/
def moreElements (element : Reader α) : Nat → Reader (List α)
  | 0 => nothing
  | fuel + 1 => do
    if ← ahead isListEnd then return []
    else
      expect .comma
      if ← ahead isListEnd then return []
      else
        let first ← element
        let others ← moreElements element fuel
        return first :: others

/-- Further elements of a list, as many as the stream has tokens. -/
def elementsAfter (element : Reader α) (first : α) : Reader (List α) := fun ts deepest =>
  (do return first :: (← moreElements element (ts.length + 1)) : Reader (List α)) ts deepest

/-- The elements of a list: parameters if the first is one, and plain values otherwise. -/
def listBody (name : String) : Reader Item := do
  let _ ← optional comma
  match ← optional pair with
  | some first => return .pairs name (← elementsAfter pair first)
  | none => return .values name (← elementsAfter listValue (← listValue))

/-- A list in brackets. -/
def list : Reader Item := do
  let name ← key
  trivia
  expect .bracketOpen
  let body ← optional (listBody name)
  if ← ahead isListEnd then
    trivia
    expect .bracketClose
    trivia
    return body.getD (.values name [])
  else nothing

/-- A block in braces, whose items another reader takes. -/
def block (body : Reader (List Item)) : Reader Item := do
  let name ← key
  let title ← literal?
  trivia
  expect .braceOpen
  trivia
  let items ← body
  trivia
  expect .braceClose
  trivia
  return .block name title items

/-- Items end with the stream or at a closing brace. -/
def endsItems : Kind → Bool
  | .streamEnd | .braceClose => true
  | _ => false

/-- The fault for an expression that no reader knows: it names the token at the deepest failure. -/
def unknown : Reader α := fun ts deepest =>
  match ts.drop (ts.length - deepest) with
  | [] => .fault (.noExpression Kind.streamEnd.name 0)
  | t :: _ => .fault (.noExpression t.kind.name t.line)

/-- One item: a block, a parameter or a list, whichever is found first. -/
def item (body : Reader (List Item)) : Reader Item :=
  (block body).orElse <| (do let p ← pair; return .pair p.1 p.2 : Reader Item).orElse <|
    list.orElse unknown

/-- Refuses items of which a key that is not plural occurs again. -/
def distinct (items : List Item) : Reader (List Item) := fun ts deepest =>
  match repeatedKey? (items.map Item.key) with
  | none => .found items ts deepest
  | some key => .fault (.repeatedKey key)

/-- Items up to the end of the stream or a closing brace.  The number bounds how many items follow
or enclose one another. -/
def items : Nat → Reader (List Item)
  | 0 => unknown
  | fuel + 1 => do
    if ← ahead endsItems then return []
    else
      let first ← item (do distinct (← items fuel))
      let others ← items fuel
      return first :: others

end Reader

/-- The items of a stream of tokens.  What follows a closing brace without an opening one is
ignored. -/
def parseTokens (ts : List Token) : Except Fault (List Item) :=
  match Reader.items (ts.length + 1) (Reader.skip (ts.drop 1)) ts.length with
  | .found items _ _ => .ok items
  | .absent _ => .ok []
  | .fault cause => .error cause

/-- The items of a LookML text. -/
def parse (text : List Char) : Except Fault (List Item) :=
  match tokens text with
  | .error fault => .error fault
  | .ok ts => parseTokens ts

/-- The entries of a LookML text. -/
def load (text : List Char) : Except Fault Value.Fields :=
  match parse text with
  | .error fault => .error fault
  | .ok items => Item.fields items

end LookmlProject.Lookml
