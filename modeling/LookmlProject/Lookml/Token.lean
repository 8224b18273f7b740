/-!
# Tokens

A LookML text is a stream of tokens.  Each carries the number of the line on which it ends.
-/

namespace LookmlProject.Lookml

/-- The kinds of tokens; some carry the text that they stand for. -/
inductive Kind where
  | streamStart
  | streamEnd
  | braceOpen
  | braceClose
  | colon
  | expressionEnd
  | comma
  | bracketOpen
  | bracketClose
  | gap
  | comment
  | expression (text : List Char)
  | literal (text : List Char)
  | quoted (text : List Char)
deriving DecidableEq, Repr

/-- The name by which messages call a kind. -/
def Kind.name : Kind → String
  | .streamStart => "<stream start>"
  | .streamEnd => "<stream end>"
  | .braceOpen => "\x7b"
  | .braceClose => "\x7d"
  | .colon => ":"
  | .expressionEnd => ";;"
  | .comma => ","
  | .bracketOpen => "["
  | .bracketClose => "]"
  | .gap => "<whitespace>"
  | .comment => "<comment>"
  | .expression _ => "<expression block>"
  | .literal _ => "<literal>"
  | .quoted _ => "<quoted literal>"

/-- White space and comments stand between the parts of an expression without meaning. -/
def Kind.isTrivia : Kind → Bool
  | .gap | .comment => true
  | _ => false

/-- A token and the line on which it ends. -/
structure Token where
  kind : Kind
  line : Nat
deriving DecidableEq, Repr

end LookmlProject.Lookml
