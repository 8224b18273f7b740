import LookmlProject.Store.Basic
import LookmlProject.Text.Order

/-!
# Patterns for paths

A pattern is a path in whose parts `*` stands for any text, `?` for any character and a set in
brackets for one of its characters.  No wildcard reaches beyond one part, and a part matches hidden
names only if it starts with a dot itself.  A pattern without wildcards stands for itself.
-/

namespace LookmlProject.Glob

/-- A piece of a pattern for one name. -/
inductive Piece where
  | many
  | one
  | none
  | char (c : Char)
  | set (negated : Bool) (ranges : List (Char × Char))

/-- A set as it is written, cut at the hyphens that join two characters to a range.  From a place on
the next hyphen cuts, and the two characters behind a cut are passed over. -/
def cutFrom : Nat → Nat → List Char → List (List Char)
  | 0, _, cs => [cs]
  | fuel + 1, place, cs =>
    match (cs.drop place).idxOf? '-' with
    | Option.none => [cs]
    | some found =>
      match cs.drop (place + found + 1) with
      | [] => [cs]
      | rest => cs.take (place + found) :: cutFrom fuel 2 rest

/-- The chunks of a set; neighbours are the ends of a range. -/
def chunks (body : List Char) : List (List Char) :=
  cutFrom body.length (if body.head? == some '!' then 2 else 1) body

/-- Takes out the ranges whose ends are in the wrong order. -/
def dropEmptyRanges : List (List Char) → List (List Char)
  | [] => []
  | chunk :: rest =>
    match dropEmptyRanges rest with
    | [] => [chunk]
    | next :: more =>
      match chunk.getLast?, next with
      | some low, high :: tail =>
        if high.toNat < low.toNat then (chunk.dropLast ++ tail) :: more
        else chunk :: next :: more
      | _, _ => chunk :: next :: more

/-- The characters and the ranges that chunks list.  Where no character stands before a hyphen, it
stands for itself. -/
def rangesOf : List (List Char) → List (Char × Char)
  | [] => []
  | [chunk] => chunk.map fun c => (c, c)
  | chunk :: next :: rest =>
    let joined :=
      match chunk.getLast?, next.head? with
      | some low, some high => [(low, high)]
      | _, _ => [('-', '-')]
    chunk.map (fun c => (c, c)) ++ joined ++ rangesOf (next :: rest)

/-- The piece for a set.  A set that is empty once its empty ranges are out matches nothing, and its
negation everything. -/
def setPiece (body : List Char) : Piece :=
  match dropEmptyRanges (chunks body) with
  | [] | [[]] => .none
  | [['!']] => .one
  | ('!' :: chunk) :: rest => .set true (rangesOf (chunk :: rest))
  | all => .set false (rangesOf all)

/-- The text of a set up to its closing bracket, which does not close it at the first place. -/
def setText? (cs : List Char) : Option (List Char × List Char) :=
  let close (front body : List Char) : Option (List Char × List Char) :=
    match body.dropWhile (· != ']') with
    | [] => none
    | _ :: rest => some (front ++ body.takeWhile (· != ']'), rest)
  match cs with
  | '!' :: ']' :: rest => close ['!', ']'] rest
  | '!' :: rest => close ['!'] rest
  | ']' :: rest => close [']'] rest
  | _ => close [] cs

/-- The pieces of a pattern for one name.  A bracket that is not closed stands for itself. -/
def pieces : Nat → List Char → List Piece
  | 0, _ => []
  | _ + 1, [] => []
  | fuel + 1, '*' :: rest => .many :: pieces fuel rest
  | fuel + 1, '?' :: rest => .one :: pieces fuel rest
  | fuel + 1, '[' :: rest =>
    match setText? rest with
    | Option.none => .char '[' :: pieces fuel rest
    | some (body, more) => setPiece body :: pieces fuel more
  | fuel + 1, c :: rest => .char c :: pieces fuel rest

/-- All ends of a text, the longest first. -/
def tails : List Char → List (List Char)
  | [] => [[]]
  | c :: rest => (c :: rest) :: tails rest

/-- Whether a set has a character. -/
def inRanges (rs : List (Char × Char)) (c : Char) : Bool :=
  rs.any fun r => r.1.toNat ≤ c.toNat && c.toNat ≤ r.2.toNat

/-- Whether a piece for one character matches it. -/
def Piece.takes : Piece → Char → Bool
  | .many, _ | .none, _ => false
  | .one, _ => true
  | .char x, c => x == c
  | .set negated rs, c => inRanges rs c != negated

/-- What may be left of a name after one more piece, the longest first. -/
def advance (left : List (List Char)) (piece : Piece) : List (List Char) :=
  match piece with
  | .many => (left.head?.map tails).getD []
  | _ => left.filterMap fun rest =>
    match rest with
    | [] => Option.none
    | c :: more => if piece.takes c then some more else Option.none

/-- Whether pieces match a whole name. -/
def matchesPieces (ps : List Piece) (name : List Char) : Bool :=
  (ps.foldl advance [name]).any List.isEmpty

/-- A hidden name starts with a dot. -/
def isHidden (cs : List Char) : Bool := cs.head? == some '.'

/-- Whether a pattern for one name matches a name. -/
def matchesName (pattern name : String) : Bool :=
  let p := pattern.toList
  let n := name.toList
  (isHidden p || !isHidden n) && matchesPieces (pieces p.length p) n

/-- Whether a pattern has wildcards. -/
def hasWildcards (pattern : String) : Bool :=
  pattern.toList.any fun c => c == '*' || c == '?' || c == '['

/-- The names in the folder at a path that a pattern for one name matches.  A path that cannot be
is a fault. -/
def namesMatching (store : Store) (folder pattern : String) (foldersOnly : Bool) :
    Except Fault (List String) :=
  let place := if folder.isEmpty then Store.Place.folder [] else store.find folder
  match place with
  | .folder here =>
    .ok ((store.names here).filter fun name =>
      matchesName pattern name && (!foldersOnly || store.isFolder (here ++ [name])))
  | .unusable => .error .badValue
  | _ => .ok []

/-- The paths that a pattern without wildcards in its last part yields inside a folder. -/
def plainName (store : Store) (folder name : String) : List String :=
  if name.isEmpty then (if store.containsFolder folder then [name] else [])
  else if store.contains (Store.join folder name) then [name]
  else []

/-- The paths that a pattern matches; the number bounds its parts. -/
def search (store : Store) : Nat → Bool → String → Except Fault (List String)
  | 0, _, _ => .ok []
  | fuel + 1, foldersOnly, pattern => do
    let folder := Store.folderOf pattern
    let name := Store.baseName pattern
    if !hasWildcards pattern then
      if name.isEmpty then return if store.containsFolder folder then [pattern] else []
      else return if store.contains pattern then [pattern] else []
    else if folder.isEmpty then namesMatching store "" name foldersOnly
    else
      let folders ←
        if folder != pattern && hasWildcards folder then search store fuel true folder
        else pure [folder]
      let found ← folders.mapM fun place => do
        let names ←
          if hasWildcards name then namesMatching store place name foldersOnly
          else pure (plainName store place name)
        return names.map (Store.join place)
      return found.flatten

/-- A way to expand patterns: the paths in a store that a pattern stands for, in some order. -/
abbrev Expansion := Store → String → Except Fault (List String)

/-- The paths that a pattern matches, in the order of the alphabet. -/
def expand (store : Store) (pattern : String) : Except Fault (List String) :=
  Text.sorted <$> search store (pattern.length + 1) false pattern

end LookmlProject.Glob
