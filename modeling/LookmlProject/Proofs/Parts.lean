import LookmlProject.Proofs.Lexing
import LookmlProject.Proofs.Spelling

/-!
# Documents put together from parts

A part of a document is a text of whole lines.  `itemsOf?` runs the lexer and the parser on it alone
and gives its items if they take all of it; such a part is read the same way wherever it stands
(`Whole`).  Parts are put one after the other (`Whole.append`) and into blocks (`Whole.block`), and
a document made of a first part, a block and a rest has the items of the three (`parse_document`).
-/

namespace LookmlProject.Lookml

/-! ## The items of a part -/

/-- The kinds of the tokens of a text, if the lexer takes all of it. -/
def partKinds? : Nat → List Char → Option (List Kind)
  | _, [] => some []
  | 0, _ :: _ => none
  | fuel + 1, c :: rest =>
    if c = endMark then none
    else
      match lexeme 0 c rest with
      | .error _ => none
      | .ok found => (partKinds? fuel found.rest).map (kindsOf found.tokens ++ ·)

/-- The items of a text, if the lexer and the parser take all of it. -/
def itemsOf? (text : List Char) : Option (List Item) :=
  match partKinds? text.length text with
  | none => none
  | some kinds =>
    let ts := (kinds ++ [Kind.streamEnd]).map fun kind => (⟨kind, 0⟩ : Token)
    match Reader.items (ts.length + 1) ts 0 with
    | .found items rest _ => if (Reader.skip rest).length = 1 then some items else none
    | _ => none

theorem lexes_of_partKinds? {fuel : Nat} {text : List Char} {kinds : List Kind}
    (h : partKinds? fuel text = some kinds) : Lexes text kinds [] := by
  induction fuel generalizing text kinds with
  | zero =>
      cases text with
      | nil => cases h; exact .nil _
      | cons c rest => cases h
  | succ fuel ih =>
      cases text with
      | nil => cases h; exact .nil _
      | cons c rest =>
          rw [partKinds?] at h
          split at h
          · cases h
          next hmark =>
          split at h
          · cases h
          next found hfound =>
          obtain ⟨kinds', hkinds', rfl⟩ := Option.map_eq_some_iff.mp h
          exact .cons (begins_of_lexeme hmark hfound) (ih hkinds')

theorem spelled_of_itemsOf? {text : List Char} {items : List Item}
    (h : itemsOf? text = some items) :
    ∃ kinds, Lexes text kinds [] ∧ Spelled kinds items := by
  rw [itemsOf?] at h
  split at h
  · cases h
  next kinds hkinds =>
  dsimp only at h
  split at h
  · next found rest deepest hfound =>
    split at h
    · next hlength =>
      cases h
      refine ⟨kinds, lexes_of_partKinds? hkinds, ?_⟩
      obtain ⟨spelling, hspelled, _, hts, _⟩ := spelled_of_items hfound
      obtain ⟨gaps, hgaps, hrest⟩ := exists_spacing rest
      obtain ⟨t, hskip⟩ := List.length_eq_one_iff.mp hlength
      -- The token left is the one that ends the stream, so the rest of the text is spelled.
      have hall : kinds ++ [.streamEnd] = spelling ++ gaps ++ [t.kind] := by
        rw [hrest, hskip] at hts
        simpa [kindsOf, Function.comp_def] using hts
      rw [List.append_inj_left' hall rfl]
      simpa using hspelled.append (.of_spacing hgaps)
    · cases h
  · cases h

/-! ## Parts that are read alike everywhere -/

/-- A text of whole lines that is read as these items wherever it stands. -/
def Whole (text : List Char) (items : List Item) : Prop :=
  ∀ rest, ∃ kinds, Spans (text ++ rest) kinds rest ∧ Spelled kinds items

theorem Whole.nil : Whole [] [] := fun rest => ⟨[], Spans.nil rest, .nil⟩

theorem Whole.append {text text' : List Char} {items items' : List Item} (h : Whole text items)
    (h' : Whole text' items') : Whole (text ++ text') (items ++ items') := by
  intro rest
  obtain ⟨kinds, hspans, hspelled⟩ := h (text' ++ rest)
  obtain ⟨kinds', hspans', hspelled'⟩ := h' rest
  rw [List.append_assoc]
  exact ⟨_, hspans.trans hspans', hspelled.append hspelled'⟩

/-- Lines that the parser reads alone are read the same way everywhere. -/
theorem whole_of_itemsOf? {text : List Char} {items : List Item}
    (hline : text = [] ∨ EndsLine text) (h : itemsOf? text = some items) : Whole text items := by
  obtain ⟨kinds, hlexes, hspelled⟩ := spelled_of_itemsOf? h
  exact fun rest => ⟨_, hlexes.spans hline rest, hspelled.dropGap⟩

/-! ## Lines of known tokens -/

/-- Blanks and tabs. -/
def isSpace (c : Char) : Bool := c == ' ' || c == '\t'

/-- What may stand at the end of a line: white space, and a comment behind it. -/
def isTrail (cs : List Char) : Bool :=
  match cs.dropWhile isSpace with
  | [] => true
  | c :: rest => c == '#' && rest.all fun x => !endsComment x

theorem isGap_of_isSpace {c : Char} (h : isSpace c = true) : isGap c = true := by
  simp only [isSpace, isGap, Bool.or_eq_true] at h ⊢
  rcases h with h | h
  · exact .inl (.inl h)
  · exact .inr h

/-- The end of a line holds no tokens but white space and comments. -/
theorem spans_trail {trail : List Char} (h : isTrail trail = true) (rest : List Char) :
    ∃ gaps, Spacing gaps ∧ Spans (trail ++ '\n' :: rest) gaps rest := by
  have hspaces : ∀ c ∈ trail.takeWhile isSpace, isGap c = true :=
    fun c hc => isGap_of_isSpace (List.mem_takeWhile_imp hc)
  have hgap : ∀ c ∈ ['\n'], isGap c = true := List.forall_mem_singleton.mpr rfl
  have hnewline : Spans (['\n'] ++ rest) [] rest := spans_gap hgap (Spans.nil rest)
  rw [← List.takeWhile_append_dropWhile (p := isSpace) (l := trail), List.append_assoc]
  rw [isTrail] at h
  split at h
  · next hend =>
      rw [hend]
      exact ⟨[], by simp [Spacing], spans_gap hspaces hnewline⟩
  · next c text hend =>
      rw [hend]
      simp only [Bool.and_eq_true, beq_iff_eq, List.all_eq_true] at h
      obtain ⟨rfl, htext⟩ := h
      have hbegins : Begins ('#' :: (text ++ '\n' :: rest)) [.comment] ('\n' :: rest) := by
        have hcomment := Begins.comment (text ++ '\n' :: rest)
        rwa [List.dropWhile_append_of_pos htext, List.dropWhile_cons_of_neg (by decide)] at hcomment
      obtain ⟨gaps, hgaps, hspans⟩ := hbegins.spans rfl
      refine ⟨_, ?_, spans_gap hspaces (hspans.trans hnewline)⟩
      simpa [Spacing, Kind.isTrivia] using hgaps

/-- A line that opens a block: indented, a key, a colon, a name and an opening brace. -/
structure Header where
  indent : List Char := []
  key : String
  between : List Char := [' ']
  name : String
  behind : List Char := [' ']
  trail : List Char := []

/-- The text of the line. -/
def Header.text (header : Header) : List Char :=
  header.indent ++ (header.key.toList ++ ':' :: (header.between ++ (header.name.toList ++
    (header.behind ++ '\x7b' :: (header.trail ++ ['\n'])))))

/-- The parts of a header are what they have to be: white space around words, and a comment at most
at the end. -/
structure Header.Formed (header : Header) : Prop where
  indent : header.indent.all isSpace = true
  key : Word header.key.toList
  parameter : header.key.toList ∉ expressionKeys
  between : header.between.all isSpace = true
  name : Word header.name.toList
  behind : header.behind.all isSpace = true
  trail : isTrail header.trail = true

instance (header : Header) : Decidable header.Formed :=
  decidable_of_iff
    (header.indent.all isSpace = true ∧ Word header.key.toList ∧
      header.key.toList ∉ expressionKeys ∧ header.between.all isSpace = true ∧
      Word header.name.toList ∧ header.behind.all isSpace = true ∧ isTrail header.trail = true)
    ⟨fun ⟨h1, h2, h3, h4, h5, h6, h7⟩ => ⟨h1, h2, h3, h4, h5, h6, h7⟩,
      fun h => ⟨h.indent, h.key, h.parameter, h.between, h.name, h.behind, h.trail⟩⟩

theorem spans_spaces {spaces text more : List Char} {kinds : List Kind}
    (hspaces : spaces.all isSpace = true) (h : Spans text kinds more) :
    Spans (spaces ++ text) kinds more :=
  spans_gap (fun c hc => isGap_of_isSpace (List.all_eq_true.mp hspaces c hc)) h

/-- A word and a colon are a key. -/
theorem spans_key {key : List Char} (hkey : Word key) (hparameter : key ∉ expressionKeys)
    (text : List Char) :
    ∃ front, KeyOf front (String.ofList key) ∧ Spans (key ++ ':' :: text) front text := by
  have hword : Spans (key ++ ':' :: text) [.literal key] (':' :: text) := by
    rw [Spans, hkey.dropWhile_isGap, dropWhile_isGap_of_not (by decide)]
    exact (hkey.begins (by decide) (.inr hparameter) text).lexes
  obtain ⟨gaps, hgaps, hcolon⟩ :=
    (Begins.symbol text (by rfl : symbol? ':' = some .colon)).spans (dropWhile_isGap_of_not rfl _)
  have hfront : KeyOf (.literal key :: ([] ++ .colon :: gaps)) (String.ofList key) :=
    KeyOf.mk (by simp [Spacing]) hgaps
  exact ⟨_, hfront, hword.trans hcolon⟩

/-- A symbol with the white space behind it. -/
theorem spans_symbol {c : Char} {kind : Kind} (h : symbol? c = some kind) (text : List Char) :
    ∃ gaps, Spacing gaps ∧ Spans (c :: text) (kind :: gaps) text :=
  (Begins.symbol text h).spans (dropWhile_isGap_of_not (symbol?_ne h).1 _)

theorem Header.Formed.spans {header : Header} (h : header.Formed) (rest : List Char) :
    ∃ front gaps gaps', KeyOf front header.key ∧ Spacing gaps ∧ Spacing gaps' ∧
      Spans (header.text ++ rest)
        (front ++ (titleKinds (some header.name.toList) ++ (gaps ++ .braceOpen :: gaps')))
        rest := by
  let opened := '\x7b' :: (header.trail ++ '\n' :: rest)
  have htext : header.text ++ rest = header.indent ++ (header.key.toList ++ ':' ::
      (header.between ++ (header.name.toList ++ (header.behind ++ opened)))) := by
    simp [Header.text, opened]
  -- A blank or the brace ends the name.
  have hname : ∃ c more, header.behind ++ opened = c :: more ∧ endsLiteral c = true ∧ c ≠ ':' := by
    have hspace : ∀ c, isSpace c = true → endsLiteral c = true ∧ c ≠ ':' := by
      intro c hc
      refine ⟨by simp [endsLiteral, isGap_of_isSpace hc], ?_⟩
      rintro rfl
      cases hc
    have hbehind := h.behind
    cases hspaces : header.behind with
    | nil => exact ⟨_, _, rfl, by decide⟩
    | cons c more =>
        rw [hspaces, List.all_cons, Bool.and_eq_true] at hbehind
        exact ⟨c, _, rfl, hspace c hbehind.1⟩
  obtain ⟨front, hkey, hfront⟩ := spans_key h.key h.parameter
    (header.between ++ (header.name.toList ++ (header.behind ++ opened)))
  obtain ⟨c, more, hmore, hends, hcolon⟩ := hname
  have hbegins := h.name.begins hends (.inl hcolon) more
  rw [← hmore] at hbegins
  obtain ⟨gaps, hgaps, hname⟩ := hbegins.spans (h.name.dropWhile_isGap _)
  obtain ⟨after, hafter, hopen⟩ := spans_symbol (by rfl : symbol? '\x7b' = some .braceOpen)
    (header.trail ++ '\n' :: rest)
  obtain ⟨trail, htrail, hend⟩ := spans_trail h.trail rest
  rw [String.ofList_toList] at hkey
  refine ⟨front, gaps, after ++ trail, hkey, hgaps, hafter.append htrail, ?_⟩
  rw [htext]
  have hall := hfront.trans <| (spans_spaces h.between hname).trans <|
    (spans_spaces h.behind hopen).trans hend
  simpa [titleKinds] using spans_spaces h.indent hall

/-- A line with the brace that closes a block. -/
structure Footer where
  indent : List Char := []
  trail : List Char := []

/-- The text of the line. -/
def Footer.text (footer : Footer) : List Char :=
  footer.indent ++ '\x7d' :: (footer.trail ++ ['\n'])

/-- Around the brace stand white space and a comment at most. -/
structure Footer.Formed (footer : Footer) : Prop where
  indent : footer.indent.all isSpace = true
  trail : isTrail footer.trail = true

instance (footer : Footer) : Decidable footer.Formed :=
  decidable_of_iff (footer.indent.all isSpace = true ∧ isTrail footer.trail = true)
    ⟨fun ⟨h1, h2⟩ => ⟨h1, h2⟩, fun h => ⟨h.indent, h.trail⟩⟩

theorem Footer.Formed.spans {footer : Footer} (h : footer.Formed) (rest : List Char) :
    ∃ gaps, Spacing gaps ∧ Spans (footer.text ++ rest) (.braceClose :: gaps) rest := by
  obtain ⟨gaps, hgaps, hclose⟩ := spans_symbol (by rfl : symbol? '\x7d' = some .braceClose)
    (footer.trail ++ '\n' :: rest)
  obtain ⟨trail, htrail, hend⟩ := spans_trail h.trail rest
  refine ⟨gaps ++ trail, hgaps.append htrail, ?_⟩
  have htext : footer.text ++ rest =
      footer.indent ++ '\x7d' :: (footer.trail ++ '\n' :: rest) := by simp [Footer.text]
  rw [htext]
  exact spans_spaces h.indent (hclose.trans hend)

/-- Lines between a header and a footer are a block. -/
theorem Whole.block {header : Header} {footer : Footer} {body : List Char} {items : List Item}
    (hheader : header.Formed) (hbody : Whole body items) (hfooter : footer.Formed) :
    Whole (header.text ++ (body ++ footer.text)) [.block header.key (some header.name) items] := by
  intro rest
  obtain ⟨front, gaps, inside, hkey, hgaps, hinside, hopen⟩ :=
    hheader.spans (body ++ (footer.text ++ rest))
  obtain ⟨kinds, hspans, hspelled⟩ := hbody (footer.text ++ rest)
  obtain ⟨after, hafter, hclose⟩ := hfooter.spans rest
  have hblock := Spelled.block (some header.name.toList) hkey hgaps
    (hspelled.spacing_append hinside) (.of_spacing hafter)
  rw [Option.map_some, String.ofList_toList] at hblock
  exact ⟨_, by simpa using hopen.trans (hspans.trans hclose), hblock⟩

/-- A line with a parameter whose value is a quoted text without quotes and backslashes. -/
theorem whole_quoted {indent key between text trail : List Char}
    (hindent : indent.all isSpace = true) (hkey : Word key) (hparameter : key ∉ expressionKeys)
    (hbetween : between.all isSpace = true) (hquote : '"' ∉ text) (hescape : '\\' ∉ text)
    (htrail : isTrail trail = true) :
    Whole (indent ++ (key ++ ':' :: (between ++ '"' :: (text ++ '"' :: (trail ++ ['\n'])))))
      [.pair (String.ofList key) (String.ofList text)] := by
  intro rest
  obtain ⟨front, hfront, hkeys⟩ := spans_key hkey hparameter
    (between ++ '"' :: (text ++ '"' :: (trail ++ '\n' :: rest)))
  obtain ⟨gaps, hgaps, hvalue⟩ :=
    (Begins.quoted (splitQuoted_plain hquote hescape (trail ++ '\n' :: rest))).spans
      (dropWhile_isGap_of_not (by decide) _)
  obtain ⟨after, hafter, hend⟩ := spans_trail htrail rest
  refine ⟨_, ?_, Spelled.pair hfront (.quoted text) (.of_spacing (hgaps.append hafter))⟩
  have hall := spans_spaces hindent <| hkeys.trans <|
    (spans_spaces hbetween hvalue).trans hend
  simpa using hall

/-! ## Whole documents -/

/-- What the parser makes of a text whose tokens spell items up to a closing brace or its end. -/
theorem parse_of_lexes {text rest : List Char} {kinds spelling tail : List Kind}
    {items : List Item} (hlexes : Lexes (text ++ [endMark]) kinds (endMark :: rest))
    (hspelled : Spelled spelling items) (htail : ClosesItems tail)
    (hkinds : skipKinds (kinds ++ [.streamEnd]) = skipKinds (spelling ++ tail)) :
    (Item.allKeyed items = true → parse text = .ok items) ∧
      (Item.allKeyed items = false → ∃ fault, parse text = .error fault) := by
  obtain ⟨ts, hscan, hts⟩ := scan_of_lexes hlexes (text.length + 1) 1 rfl (by simp)
  have hskip : kindsOf (Reader.skip ts) = skipKinds (spelling ++ tail) := by
    rw [kindsOf_skip, hts, hkinds]
  have hlength : (kindsOf (Reader.skip ts)).length ≤ ts.length := by
    rw [kindsOf_skip]
    exact (length_skipKinds_le _).trans (by simp [kindsOf])
  have hreads := hspelled.reads htail (ts.length + 2) (kindsOf (Reader.skip ts))
    (by rw [hskip, skipKinds_skipKinds])
    (by rw [hskip, skipKinds_skipKinds, ← hskip]; omega)
  have hparse : parse text = parseTokens (⟨.streamStart, 1⟩ :: ts) := by
    rw [parse, tokens, hscan]
  rw [hparse, parseTokens, List.drop_one, List.tail_cons, List.length_cons]
  refine ⟨fun hkeyed => ?_, fun hkeyed => ?_⟩
  · obtain ⟨_, hfinds, _⟩ := hreads.finds hkeyed
    obtain ⟨_, _, hfound, _⟩ := hfinds (Reader.skip ts) (ts.length + 1) rfl
    rw [hfound]
  · obtain ⟨cause, hfault⟩ := hreads.faults hkeyed (Reader.skip ts) (ts.length + 1) rfl
    exact ⟨cause, by rw [hfault]⟩

/-- The tokens of a text that the parser reads spell its items, up to a closing brace or its end. -/
theorem lexes_of_parse {text : List Char} {items : List Item} (h : parse text = .ok items) :
    ∃ kinds rest spelling tail, Lexes (text ++ [endMark]) kinds (endMark :: rest) ∧
      Spelled spelling items ∧ ClosesItems tail ∧ kinds ++ [.streamEnd] = spelling ++ tail := by
  rw [parse, tokens] at h
  split at h
  · cases h
  next ts hts =>
  split at hts
  · cases hts
  next ts' hscan =>
  cases hts
  obtain ⟨kinds, rest, hlexes, hkinds⟩ := lexes_of_scan hscan
  rw [parseTokens] at h
  split at h
  · next hfound =>
      cases h
      obtain ⟨spelling, hspelled, _, hskip, hcloses⟩ := spelled_of_items hfound
      obtain ⟨gaps, hgaps, hall⟩ := exists_spacing ts'
      refine ⟨kinds, rest, gaps ++ spelling, _, hlexes, hspelled.spacing_append hgaps, hcloses, ?_⟩
      rw [← hkinds, hall, List.append_assoc, ← hskip]
      rfl
  · next habsent => exact absurd habsent (Reader.answers_items _ _ _ _)
  · cases h

/-- **A DOCUMENT FROM PARTS**: lines, a block whose closing brace is indented, and a rest. -/
theorem parse_document {before body indent rest : List Char} {header : Header}
    {items inner items' : List Item} (hbefore : Whole before items) (hheader : header.Formed)
    (hbody : Whole body inner) (hindent : indent.all isSpace = true)
    (hrest : parse rest = .ok items') :
    (Item.allKeyed (items ++ .block header.key (some header.name) inner :: items') = true →
      parse (before ++ (header.text ++ (body ++ (indent ++ '\x7d' :: rest)))) =
        .ok (items ++ .block header.key (some header.name) inner :: items')) ∧
    (Item.allKeyed (items ++ .block header.key (some header.name) inner :: items') = false →
      ∃ fault, parse (before ++ (header.text ++ (body ++ (indent ++ '\x7d' :: rest)))) =
        .error fault) := by
  obtain ⟨kinds, more, spelling, tail, hlexes, hspelled, htail, hkinds⟩ := lexes_of_parse hrest
  -- The four runs of tokens: the lines before, the header, the body, and the rest from the brace.
  let closing := indent ++ '\x7d' :: (rest ++ [endMark])
  obtain ⟨kinds₁, hspans₁, hspelled₁⟩ := hbefore (header.text ++ (body ++ closing))
  obtain ⟨front, gaps, inside, hkey, hgaps, hinside, hspans₂⟩ := hheader.spans (body ++ closing)
  obtain ⟨kinds₃, hspans₃, hspelled₃⟩ := hbody closing
  have hspans₄ : Spans closing (.braceClose :: kinds) (endMark :: more) := by
    refine spans_spaces hindent ?_
    rw [Spans, dropWhile_isGap_of_not (by decide), dropWhile_isGap_of_not (by decide)]
    exact .cons (.symbol _ rfl) hlexes
  have hspans := hspans₁.trans (hspans₂.trans (hspans₃.trans hspans₄))
  obtain ⟨gaps', hgaps', hlexes'⟩ :=
    exists_gap (before ++ (header.text ++ (body ++ closing)))
  have hblock := Spelled.block (some header.name.toList) hkey hgaps
    (hspelled₃.spacing_append hinside) hspelled
  rw [Option.map_some, String.ofList_toList] at hblock
  have hlast : (endMark :: more).dropWhile isGap = endMark :: more := dropWhile_isGap_of_not rfl _
  rw [Spans, hlast] at hspans
  refine parse_of_lexes (by simpa [closing] using hlexes'.trans hspans)
    (hspelled₁.append hblock) htail ?_
  rw [List.append_assoc, skipKinds_spacing hgaps']
  simp [hkinds]

end LookmlProject.Lookml
