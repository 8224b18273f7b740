import LookmlProject.Decimal.Whole
import LookmlProject.Json.Basic

/-!
# Reading JSON

A reader for one JSON value.  Whole numbers stay exact, the order of keys is kept, and of a repeated
key the last value stands at the first place.  The words `NaN`, `Infinity` and `-Infinity` are
numbers.  A whole number with too many digits is a fault of its own.
-/

namespace LookmlProject.Json

/-- White space between the parts of a JSON text. -/
def isSpace (c : Char) : Bool := c == ' ' || c == '\t' || c == '\n' || c == '\r'

/-- The text after white space. -/
def skipSpace (cs : List Char) : List Char := cs.dropWhile isSpace

/-- The value of a digit in base sixteen. -/
def hexValue? (c : Char) : Option Nat :=
  if '0' ≤ c ∧ c ≤ '9' then some (c.toNat - 48)
  else if 'a' ≤ c ∧ c ≤ 'f' then some (c.toNat - 87)
  else if 'A' ≤ c ∧ c ≤ 'F' then some (c.toNat - 55)
  else none

/-- Four digits in base sixteen. -/
def readUnit? : List Char → Option (Nat × List Char)
  | a :: b :: c :: d :: rest => do
    let a ← hexValue? a
    let b ← hexValue? b
    let c ← hexValue? c
    let d ← hexValue? d
    return (((a * 16 + b) * 16 + c) * 16 + d, rest)
  | _ => none

/-- The character for an escape letter other than `u`. -/
def escape? : Char → Option Char
  | '"' => some '"'
  | '\\' => some '\\'
  | '/' => some '/'
  | 'b' => some (Char.ofNat 8)
  | 'f' => some (Char.ofNat 12)
  | 'n' => some '\n'
  | 'r' => some '\r'
  | 't' => some '\t'
  | _ => none

/-- The units of a string up to its closing quote, and the text after it. -/
def readString? : Nat → List Char → Option (List UInt16 × List Char)
  | 0, _ => none
  | _ + 1, [] => none
  | fuel + 1, c :: rest =>
    if c = '"' then some ([], rest)
    else if c = '\\' then
      match rest with
      | [] => none
      | 'u' :: more =>
        match readUnit? more with
        | none => none
        | some (n, rest') => (readString? fuel rest').map fun r => (n.toUInt16 :: r.1, r.2)
      | e :: more =>
        match escape? e with
        | none => none
        | some x => (readString? fuel more).map fun r => (Text.charUnits x ++ r.1, r.2)
    else if c.toNat < 32 then none
    else (readString? fuel rest).map fun r => (Text.charUnits c ++ r.1, r.2)

/-- A string behind its opening quote. -/
def readString (cs : List Char) : Except Fault (List UInt16 × List Char) :=
  match readString? (cs.length + 1) cs with
  | some r => .ok r
  | none => .error .badJson

/-- The number that ASCII digits denote. -/
def digitsValue (ds : List Char) : Nat := ds.foldl (fun n d => n * 10 + (d.toNat - 48)) 0

/-- The digits of the whole part: a zero alone, or digits that do not start with a zero. -/
def readWholePart? : List Char → Option (List Char × List Char)
  | '0' :: rest => some (['0'], rest)
  | cs =>
    match cs.takeWhile Char.isDigit with
    | [] => none
    | ds => some (ds, cs.dropWhile Char.isDigit)

/-- The digits after a point, if a point with digits stands here. -/
def readFraction (cs : List Char) : Option (List Char) × List Char :=
  match cs with
  | '.' :: rest =>
    match rest.takeWhile Char.isDigit with
    | [] => (none, cs)
    | ds => (some ds, rest.dropWhile Char.isDigit)
  | _ => (none, cs)

/-- The exponent, if a complete one stands here. -/
def readExponent (cs : List Char) : Option Int × List Char :=
  let digits (sign : Int) (rest : List Char) : Option Int × List Char :=
    match rest.takeWhile Char.isDigit with
    | [] => (none, cs)
    | ds => (some (sign * digitsValue ds), rest.dropWhile Char.isDigit)
  match cs with
  | e :: rest =>
    if e = 'e' || e = 'E' then
      match rest with
      | '+' :: more => digits 1 more
      | '-' :: more => digits (-1) more
      | _ => digits 1 rest
    else (none, cs)
  | [] => (none, cs)

/-- The floating-point number nearest to `n * 10 ^ e`. -/
def scaled (negative : Bool) (n : Nat) (e : Int) : Float :=
  let x := if e < 0 then Float.ofScientific n true e.natAbs else Float.ofScientific n false e.natAbs
  if negative then -x else x

/-- A number: whole if it has neither fraction nor exponent. -/
def readNumber (negative : Bool) (cs : List Char) : Except Fault (Json × List Char) :=
  match readWholePart? cs with
  | none => .error .badJson
  | some (whole, rest) =>
    let fraction := readFraction rest
    let exponent := readExponent fraction.2
    match fraction.1, exponent.1 with
    | none, none =>
      if Decimal.maxDigits < whole.length then .error .badValue
      else
        let n : Int := digitsValue whole
        .ok (.int (if negative then -n else n), rest)
    | f, e =>
      let places := f.getD []
      let x := scaled negative (digitsValue (whole ++ places)) (e.getD 0 - places.length)
      .ok (.float x, exponent.2)

/-- The words that are values. -/
def words : List (List Char × Json) := [
  ("null".toList, .null), ("true".toList, .bool true), ("false".toList, .bool false),
  ("NaN".toList, .float (0.0 / 0.0)), ("Infinity".toList, .float (1.0 / 0.0)),
  ("-Infinity".toList, .float (-1.0 / 0.0))]

/-- A word or a number. -/
def readScalar (cs : List Char) : Except Fault (Json × List Char) :=
  match words.find? fun w => w.1.isPrefixOf cs with
  | some (w, v) => .ok (v, cs.drop w.length)
  | none =>
    match cs with
    | '-' :: rest => readNumber true rest
    | _ => readNumber false cs

mutual

/-- One value, without white space in front of it. -/
def readValue : Nat → List Char → Except Fault (Json × List Char)
  | 0, _ => .error .badJson
  | fuel + 1, cs =>
    match cs with
    | '"' :: rest => do
      let (units, rest) ← readString rest
      return (.text units, rest)
    | '[' :: rest =>
      match skipSpace rest with
      | ']' :: more => .ok (.list [], more)
      | more => do
        let (items, rest) ← readItems fuel more
        return (.list items, rest)
    | '\x7b' :: rest =>
      match skipSpace rest with
      | '\x7d' :: more => .ok (.record [], more)
      | more => do
        let (entries, rest) ← readFields fuel more
        return (.record (Fields.ofEntries entries), rest)
    | _ => readScalar cs

/-- The elements of a list up to its closing bracket. -/
def readItems : Nat → List Char → Except Fault (List Json × List Char)
  | 0, _ => .error .badJson
  | fuel + 1, cs => do
    let (v, rest) ← readValue fuel cs
    match skipSpace rest with
    | ']' :: more => return ([v], more)
    | ',' :: more =>
      let (items, rest) ← readItems fuel (skipSpace more)
      return (v :: items, rest)
    | _ => throw .badJson

/-- The entries of a record up to its closing brace. -/
def readFields : Nat → List Char → Except Fault (List (List UInt16 × Json) × List Char)
  | 0, _ => .error .badJson
  | fuel + 1, cs =>
    match cs with
    | '"' :: rest => do
      let (key, rest) ← readString rest
      match skipSpace rest with
      | ':' :: rest =>
        let (v, rest) ← readValue fuel (skipSpace rest)
        match skipSpace rest with
        | '\x7d' :: more => return ([(key, v)], more)
        | ',' :: more =>
          let (entries, rest) ← readFields fuel (skipSpace more)
          return ((key, v) :: entries, rest)
        | _ => throw .badJson
      | _ => throw .badJson
    | _ => .error .badJson

end

/-- The value that a JSON text holds; nothing but white space may stand around it. -/
def parse (cs : List Char) : Except Fault Json := do
  let (v, rest) ← readValue (cs.length + 1) (skipSpace cs)
  if (skipSpace rest).isEmpty then return v else throw .badJson

end LookmlProject.Json
