import LookmlProject.Fault
import LookmlProject.Lookml.Token

/-!
# From text to tokens

A NUL character ends the text, and one is put after the last character.  At each place the first
character decides which token starts there:

* blanks, tabs and line feeds form one gap;
* a number sign starts a comment up to the end of the line;
* a double quote starts a quoted text, in which a backslash takes the next character along;
* braces, brackets, comma and colon stand for themselves, and `;;` ends an expression;
* the name of an expression parameter with a colon right after it starts an expression, which goes
  up to the next `;;`;
* anything else is a literal up to a blank, a colon, a comma or a closing bracket or brace.
-/

namespace LookmlProject.Lookml

/-- The character that ends a text. -/
def endMark : Char := Char.ofNat 0

/-- The white space between tokens. -/
def isGap (c : Char) : Bool := c == ' ' || c == '\n' || c == '\t'

/-- The characters at which a literal ends. -/
def endsLiteral (c : Char) : Bool :=
  c == endMark || isGap c || c == ':' || c == '\x7d' || c == '\x7b' || c == ',' || c == ']'

/-- The characters at which a comment ends. -/
def endsComment (c : Char) : Bool := c == '\n' || c == endMark

/-- The parameters whose value is an expression up to `;;`. -/
def expressionKeys : List (List Char) := [
  "expression_custom_filter".toList, "expression".toList, "html".toList,
  "sql_trigger_value".toList, "sql_table_name".toList, "sql_distinct_key".toList,
  "sql_start".toList, "sql_always_having".toList, "sql_always_where".toList,
  "sql_trigger".toList, "sql_foreign_key".toList, "sql_where".toList, "sql_end".toList,
  "sql_create".toList, "sql_latitude".toList, "sql_longitude".toList, "sql_step".toList,
  "sql_on".toList, "sql".toList, "sql_preamble".toList]

/-- The tokens of a single character. -/
def symbol? : Char → Option Kind
  | '\x7b' => some .braceOpen
  | '\x7d' => some .braceClose
  | '[' => some .bracketOpen
  | ']' => some .bracketClose
  | ',' => some .comma
  | ':' => some .colon
  | _ => none

/-- The number of line feeds in a text. -/
def newlines (cs : List Char) : Nat := cs.count '\n'

/-- The text up to the closing quote and the text after it.  A backslash takes the next character
along and stays. -/
def splitQuoted : List Char → Option (List Char × List Char)
  | [] => none
  | ['\\'] => none
  | '\\' :: c :: rest => (splitQuoted rest).map fun r => ('\\' :: c :: r.1, r.2)
  | '"' :: rest => some ([], rest)
  | c :: rest => (splitQuoted rest).map fun r => (c :: r.1, r.2)

/-- The line feeds of a quoted text that no backslash takes along. -/
def quotedNewlines : List Char → Nat
  | [] => 0
  | '\\' :: _ :: rest => quotedNewlines rest
  | c :: rest => (if c = '\n' then 1 else 0) + quotedNewlines rest

/-- The text up to `;;` and the text from there on. -/
def splitExpression : List Char → Option (List Char × List Char)
  | [] => none
  | ';' :: ';' :: rest => some ([], ';' :: ';' :: rest)
  | c :: rest => (splitExpression rest).map fun r => (c :: r.1, r.2)

/-- The expression parameter whose name, with a colon, starts a text. -/
def expressionKey? (cs : List Char) : Option (List Char) :=
  expressionKeys.find? fun key => (key ++ [':']).isPrefixOf cs

/-- What one place of a text yields: the tokens that start there, the line reached and the text
left. -/
structure Lexeme where
  tokens : List Token
  line : Nat
  rest : List Char

/-- The tokens at the start of a text whose first character is `c`. -/
def lexeme (line : Nat) (c : Char) (rest : List Char) : Except Fault Lexeme :=
  let cs := c :: rest
  if isGap c then
    let reached := line + newlines (cs.takeWhile isGap)
    .ok ⟨[⟨.gap, reached⟩], reached, cs.dropWhile isGap⟩
  else if c = '#' then
    .ok ⟨[⟨.comment, line⟩], line, cs.dropWhile fun x => !endsComment x⟩
  else if c = ';' then
    match rest with
    | ';' :: more => .ok ⟨[⟨.expressionEnd, line⟩], line, more⟩
    | _ => .error .loneSemicolon
  else if c = '"' then
    match splitQuoted rest with
    | none => .error .unfinishedText
    | some (text, more) =>
      let reached := line + quotedNewlines text
      .ok ⟨[⟨.quoted text, reached⟩], reached, more⟩
  else
    match symbol? c with
    | some kind => .ok ⟨[⟨kind, line⟩], line, rest⟩
    | none =>
      match expressionKey? cs with
      | some key =>
        match splitExpression (cs.drop (key.length + 1)) with
        | none => .error .unfinishedText
        | some (text, more) =>
          let reached := line + newlines text
          .ok ⟨[⟨.literal key, line⟩, ⟨.colon, line⟩, ⟨.expression text, reached⟩], reached, more⟩
      | none =>
        .ok ⟨[⟨.literal (cs.takeWhile fun x => !endsLiteral x), line⟩], line,
          cs.dropWhile fun x => !endsLiteral x⟩

/-- The tokens of a text from a line on; each round takes at least one character. -/
def scan : Nat → Nat → List Char → Except Fault (List Token)
  | 0, _, _ => .error .unfinishedText
  | _ + 1, _, [] => .error .unfinishedText
  | fuel + 1, line, c :: rest =>
    if c = endMark then .ok [⟨.streamEnd, line⟩]
    else
      match lexeme line c rest with
      | .error fault => .error fault
      | .ok found =>
        match scan fuel found.line found.rest with
        | .error fault => .error fault
        | .ok tokens => .ok (found.tokens ++ tokens)

/-- The tokens of a LookML text. -/
def tokens (text : List Char) : Except Fault (List Token) :=
  match scan (text.length + 1) 1 (text ++ [endMark]) with
  | .error fault => .error fault
  | .ok found => .ok (⟨.streamStart, 1⟩ :: found)

end LookmlProject.Lookml
