import LookmlProject.Proofs.Grammar
import Mathlib.Data.List.TakeWhile

/-!
# The tokens of a part of a text

The lexer cuts a text from its start.  Here a token is described by the text that it stands in front
of (`Begins`), and a run of tokens by the two places between which it stands (`Lexes`), so that a
text can be put together from parts whose tokens are known.

  * `begins_of_lexeme` and `lexeme_of_begins`: the relation is the lexer's own step;
  * `Lexes.append`: the tokens of a text of whole lines stay what they are in front of any other
    text;
  * `scan_of_lexes` and `lexes_of_scan`: the tokens of a whole text.

White space at the end of one part and at the start of the next makes one gap.  `Spans` is `Lexes`
without the white space in front of either place, and its runs can be joined with no regard to that.
-/

namespace LookmlProject.Lookml

/-! ## One token -/

/-- A character with which a literal or an expression may start. -/
structure Plain (c : Char) : Prop where
  mark : c ≠ endMark
  gap : isGap c = false
  comment : c ≠ '#'
  semicolon : c ≠ ';'
  quote : c ≠ '"'
  symbol : symbol? c = none

instance (c : Char) : Decidable (Plain c) :=
  decidable_of_iff
    (c ≠ endMark ∧ isGap c = false ∧ c ≠ '#' ∧ c ≠ ';' ∧ c ≠ '"' ∧ (symbol? c).isNone = true)
    ⟨fun ⟨h1, h2, h3, h4, h5, h6⟩ => ⟨h1, h2, h3, h4, h5, Option.isNone_iff_eq_none.mp h6⟩,
      fun h => ⟨h.mark, h.gap, h.comment, h.semicolon, h.quote, by rw [h.symbol]; rfl⟩⟩

/-- Tokens of these kinds stand at the start of a text, in front of another. -/
inductive Begins : List Char → List Kind → List Char → Prop
  | gap {c : Char} (rest : List Char) : isGap c = true →
      Begins (c :: rest) [.gap] (rest.dropWhile isGap)
  | comment (rest : List Char) :
      Begins ('#' :: rest) [.comment] (rest.dropWhile fun x => !endsComment x)
  | expressionEnd (rest : List Char) : Begins (';' :: ';' :: rest) [.expressionEnd] rest
  | quoted {rest text more : List Char} : splitQuoted rest = some (text, more) →
      Begins ('"' :: rest) [.quoted text] more
  | symbol {c : Char} {kind : Kind} (rest : List Char) : symbol? c = some kind →
      Begins (c :: rest) [kind] rest
  | expression {c : Char} {rest key text more : List Char} : Plain c →
      expressionKey? (c :: rest) = some key →
      splitExpression ((c :: rest).drop (key.length + 1)) = some (text, more) →
      Begins (c :: rest) [.literal key, .colon, .expression text] more
  | literal {c : Char} {rest : List Char} : Plain c → expressionKey? (c :: rest) = none →
      Begins (c :: rest) [.literal (c :: rest.takeWhile fun x => !endsLiteral x)]
        (rest.dropWhile fun x => !endsLiteral x)

/-- A symbol is none of the characters that start another token. -/
theorem symbol?_ne {c : Char} {kind : Kind} (h : symbol? c = some kind) :
    isGap c = false ∧ c ≠ '#' ∧ c ≠ ';' ∧ c ≠ '"' := by
  unfold symbol? at h
  split at h
  all_goals first | decide | cases h

/-- A literal does not end with the character it starts with. -/
theorem Plain.endsLiteral {c : Char} (h : Plain c) : endsLiteral c = false := by
  obtain ⟨hmark, hgap, -, -, -, hsymbol⟩ := h
  have hne : c ≠ ':' ∧ c ≠ '\x7d' ∧ c ≠ '\x7b' ∧ c ≠ ',' ∧ c ≠ ']' := by
    refine ⟨?_, ?_, ?_, ?_, ?_⟩ <;> rintro rfl <;> cases hsymbol
  simp [Lookml.endsLiteral, hmark, hgap, hne]

theorem Plain.takeWhile {c : Char} (h : Plain c) (rest : List Char) :
    ((c :: rest).takeWhile fun x => !Lookml.endsLiteral x) =
      c :: rest.takeWhile fun x => !Lookml.endsLiteral x := by
  rw [List.takeWhile_cons, h.endsLiteral]
  rfl

theorem Plain.dropWhile {c : Char} (h : Plain c) (rest : List Char) :
    ((c :: rest).dropWhile fun x => !Lookml.endsLiteral x) =
      rest.dropWhile fun x => !Lookml.endsLiteral x := by
  rw [List.dropWhile_cons, h.endsLiteral]
  rfl

/-- A step of the lexer finds a token that stands there. -/
theorem begins_of_lexeme {line : Nat} {c : Char} {rest : List Char} {found : Lexeme}
    (hmark : c ≠ endMark) (h : lexeme line c rest = .ok found) :
    Begins (c :: rest) (kindsOf found.tokens) found.rest := by
  -- One split for each test of the lexer, in its order; what passes them all is plain.
  unfold lexeme at h
  split at h
  · next hgap =>
      cases h
      show Begins _ _ ((c :: rest).dropWhile isGap)
      rw [List.dropWhile_cons_of_pos hgap]
      exact .gap rest hgap
  split at h
  · next _ hcomment =>
      cases h
      subst hcomment
      exact .comment rest
  split at h
  · next _ _ hsemicolon =>
      subst hsemicolon
      split at h
      · cases h; exact .expressionEnd _
      · cases h
  split at h
  · next _ _ _ hquote =>
      subst hquote
      split at h
      · cases h
      · next hsplit => cases h; exact .quoted hsplit
  next hgap hcomment hsemicolon hquote =>
  split at h
  · next hsymbol => cases h; exact .symbol rest hsymbol
  next hsymbol =>
  have hplain : Plain c := ⟨hmark, by simpa using hgap, hcomment, hsemicolon, hquote, hsymbol⟩
  dsimp only at h
  split at h
  · next hkey =>
      split at h
      · cases h
      · next hsplit => cases h; exact .expression hplain hkey hsplit
  · next hkey =>
      cases h
      rw [hplain.takeWhile, hplain.dropWhile]
      exact .literal hplain hkey

/-- A token that stands there is found by a step of the lexer, at whatever line. -/
theorem lexeme_of_begins {c : Char} {rest more : List Char} {kinds : List Kind}
    (h : Begins (c :: rest) kinds more) (line : Nat) :
    ∃ ts reached, lexeme line c rest = .ok ⟨ts, reached, more⟩ ∧ kindsOf ts = kinds := by
  unfold lexeme
  cases h with
  | gap _ hgap =>
      have hdrop : (c :: rest).dropWhile isGap = rest.dropWhile isGap :=
        List.dropWhile_cons_of_pos hgap
      rw [if_pos hgap, hdrop]
      exact ⟨_, _, rfl, rfl⟩
  | comment => exact ⟨_, _, rfl, rfl⟩
  | expressionEnd => exact ⟨_, _, rfl, rfl⟩
  | quoted hsplit =>
      rw [if_neg (by decide), if_neg (by decide), if_neg (by decide), if_pos rfl, hsplit]
      exact ⟨_, _, rfl, rfl⟩
  | symbol _ hsymbol =>
      obtain ⟨hgap, hcomment, hsemicolon, hquote⟩ := symbol?_ne hsymbol
      rw [if_neg (by simp [hgap]), if_neg hcomment, if_neg hsemicolon, if_neg hquote, hsymbol]
      exact ⟨_, _, rfl, rfl⟩
  | expression hplain hkey hsplit =>
      rw [if_neg (by simp [hplain.gap]), if_neg hplain.comment, if_neg hplain.semicolon,
        if_neg hplain.quote, hplain.symbol]
      dsimp only
      rw [hkey]
      dsimp only
      rw [hsplit]
      exact ⟨_, _, rfl, rfl⟩
  | literal hplain hkey =>
      rw [if_neg (by simp [hplain.gap]), if_neg hplain.comment, if_neg hplain.semicolon,
        if_neg hplain.quote, hplain.symbol]
      dsimp only
      rw [hkey, hplain.takeWhile, hplain.dropWhile]
      exact ⟨_, _, rfl, rfl⟩

/-! ## A token in front of more text -/

theorem splitQuoted_cons {c : Char} (hescape : c ≠ '\\') (hquote : c ≠ '"') (cs : List Char) :
    splitQuoted (c :: cs) = (splitQuoted cs).map fun r => (c :: r.1, r.2) :=
  splitQuoted.eq_5 c cs (fun h => absurd h hescape) (fun _ _ h => absurd h hescape)
    fun h => absurd h hquote

/-- The end of a quoted text is found at the same place with more text behind it. -/
theorem splitQuoted_append {cs text more : List Char} (h : splitQuoted cs = some (text, more))
    (rest : List Char) : splitQuoted (cs ++ rest) = some (text, more ++ rest) := by
  -- By the cases of the function: an escaped character is taken with its backslash.
  induction cs using splitQuoted.induct generalizing text more with
  | case1 => cases h
  | case2 => cases h
  | case3 c cs ih =>
      rw [splitQuoted, Option.map_eq_some_iff] at h
      obtain ⟨found, hfound, heq⟩ := h
      cases heq
      simp [splitQuoted, ih hfound]
  | case4 cs => cases h; rfl
  | case5 c cs hlast hescaped hquote ih =>
      have hescape : c ≠ '\\' := by
        rintro rfl
        cases cs with
        | nil => exact hlast rfl rfl
        | cons c' cs => exact hescaped c' cs rfl rfl
      rw [splitQuoted_cons hescape hquote, Option.map_eq_some_iff] at h
      obtain ⟨found, hfound, heq⟩ := h
      cases heq
      rw [List.cons_append, splitQuoted_cons hescape hquote, ih hfound]
      rfl

/-- The end of an expression is found at the same place with more text behind it. -/
theorem splitExpression_append {cs text more : List Char}
    (h : splitExpression cs = some (text, more)) (rest : List Char) :
    splitExpression (cs ++ rest) = some (text, more ++ rest) := by
  induction cs using splitExpression.induct generalizing text more with
  | case1 => cases h
  | case2 cs => cases h; rfl
  | case3 c cs hend ih =>
      rw [splitExpression.eq_3 c cs hend, Option.map_eq_some_iff] at h
      obtain ⟨found, hfound, heq⟩ := h
      cases heq
      -- A semicolon at the end of the text would be an end only with the first character behind it,
      -- but then nothing has been found in the text.
      have hend' : ∀ more, c = ';' → cs ++ rest = ';' :: more → False := by
        intro more hc hcs
        cases cs with
        | nil => cases hfound
        | cons c' cs =>
            rw [List.cons_append] at hcs
            cases hcs
            exact hend cs hc rfl
      rw [List.cons_append, splitExpression.eq_3 c _ hend', ih hfound]
      rfl

/-- A quoted text ends in front of a quote. -/
theorem eq_of_splitQuoted {cs text more : List Char} (h : splitQuoted cs = some (text, more)) :
    cs = text ++ '"' :: more := by
  induction cs using splitQuoted.induct generalizing text more with
  | case1 => cases h
  | case2 => cases h
  | case3 c cs ih =>
      rw [splitQuoted, Option.map_eq_some_iff] at h
      obtain ⟨found, hfound, heq⟩ := h
      cases heq
      rw [ih hfound]
      rfl
  | case4 cs => cases h; rfl
  | case5 c cs hlast hescaped hquote ih =>
      rw [splitQuoted.eq_5 c cs hlast hescaped hquote, Option.map_eq_some_iff] at h
      obtain ⟨found, hfound, heq⟩ := h
      cases heq
      rw [ih hfound]
      rfl

/-- An expression ends in front of two semicolons. -/
theorem eq_of_splitExpression {cs text more : List Char}
    (h : splitExpression cs = some (text, more)) :
    cs = text ++ more ∧ ∃ rest, more = ';' :: ';' :: rest := by
  induction cs using splitExpression.induct generalizing text more with
  | case1 => cases h
  | case2 cs => cases h; exact ⟨rfl, cs, rfl⟩
  | case3 c cs hend ih =>
      rw [splitExpression.eq_3 c cs hend, Option.map_eq_some_iff] at h
      obtain ⟨found, hfound, heq⟩ := h
      cases heq
      obtain ⟨hcs, hmore⟩ := ih hfound
      exact ⟨by rw [hcs]; rfl, hmore⟩

/-- A text that ends with a line feed. -/
def EndsLine (text : List Char) : Prop := text.getLast? = some '\n'

instance (text : List Char) : Decidable (EndsLine text) :=
  inferInstanceAs (Decidable (text.getLast? = some '\n'))

theorem EndsLine.mem {text : List Char} (h : EndsLine text) : '\n' ∈ text :=
  List.mem_of_getLast? h

/-- The last part of a text that ends with a line feed ends with it too, unless it is empty. -/
theorem EndsLine.of_append {front text : List Char} (h : EndsLine (front ++ text))
    (hne : text ≠ []) : EndsLine text := by
  obtain ⟨last, hlast⟩ := Option.isSome_iff_exists.mp (List.getLast?_isSome.mpr hne)
  rw [EndsLine, List.getLast?_append, hlast] at h
  rw [EndsLine, hlast]
  exact h

/-- A text without line feeds that starts a longer one also starts its first lines. -/
theorem isPrefixOf_append {part cs : List Char} (hline : EndsLine cs) (hpart : '\n' ∉ part)
    (rest : List Char) : part.isPrefixOf (cs ++ rest) = part.isPrefixOf cs := by
  rw [Bool.eq_iff_iff, List.isPrefixOf_iff_prefix, List.isPrefixOf_iff_prefix]
  refine ⟨fun h => ?_, fun h => h.trans (List.prefix_append cs rest)⟩
  rcases List.prefix_or_prefix_of_prefix h (List.prefix_append cs rest) with hshort | hlong
  · exact hshort
  · exact absurd (hlong.subset hline.mem) hpart

/-- The names of expression parameters have no character that ends a literal. -/
theorem endsLiteral_expressionKeys :
    ∀ key ∈ expressionKeys, ∀ c ∈ key, endsLiteral c = false := by
  have hall : (expressionKeys.all fun key => key.all fun c => !endsLiteral c) = true := by
    decide +kernel
  simpa using hall

/-- Whether an expression starts is decided by the first lines of a text. -/
theorem expressionKey?_append {cs : List Char} (hline : EndsLine cs) (rest : List Char) :
    expressionKey? (cs ++ rest) = expressionKey? cs := by
  have hkeys : ∀ key ∈ expressionKeys, '\n' ∉ key ++ [':'] := by
    intro key hkey hmem
    rcases List.mem_append.mp hmem with hmem | hmem
    · exact absurd (endsLiteral_expressionKeys key hkey _ hmem) (by decide)
    · exact absurd hmem (by decide)
  have hsame : ∀ key ∈ expressionKeys,
      (key ++ [':']).isPrefixOf (cs ++ rest) = (key ++ [':']).isPrefixOf cs :=
    fun key hkey => isPrefixOf_append hline (hkeys key hkey) rest
  rw [expressionKey?, expressionKey?]
  -- The names differ from the text behind in no respect but these tests, so any list of names will
  -- do.
  generalize expressionKeys = keys at hsame
  induction keys with
  | nil => rfl
  | cons key keys ih =>
      rw [List.find?_cons, List.find?_cons, hsame key List.mem_cons_self,
        ih fun k hk => hsame k (List.mem_cons_of_mem _ hk)]

/-- The name of an expression parameter stands in front of a colon. -/
theorem eq_of_expressionKey? {cs key : List Char} (h : expressionKey? cs = some key) :
    cs = key ++ ':' :: cs.drop (key.length + 1) := by
  have hstart : (key ++ [':']).isPrefixOf cs = true := by
    rw [expressionKey?] at h
    simpa using List.find?_some h
  obtain ⟨rest, rfl⟩ := List.isPrefixOf_iff_prefix.mp hstart
  simp

/-- What a token takes is not empty. -/
theorem Begins.exists_append {cs more : List Char} {kinds : List Kind} (h : Begins cs kinds more) :
    ∃ c taken, cs = c :: (taken ++ more) := by
  have hdrop : ∀ (p : Char → Bool) (cs : List Char), ∃ taken, cs = taken ++ cs.dropWhile p :=
    fun p cs => ⟨cs.takeWhile p, List.takeWhile_append_dropWhile.symm⟩
  cases h with
  | gap rest _ =>
      obtain ⟨taken, htaken⟩ := hdrop isGap rest
      exact ⟨_, taken, by rw [← htaken]⟩
  | comment rest =>
      obtain ⟨taken, htaken⟩ := hdrop (fun x => !endsComment x) rest
      exact ⟨_, taken, by rw [← htaken]⟩
  | expressionEnd rest => exact ⟨_, [';'], rfl⟩
  | quoted hsplit => exact ⟨_, _, by rw [eq_of_splitQuoted hsplit, List.append_cons]⟩
  | symbol rest _ => exact ⟨_, [], rfl⟩
  | expression hplain hkey hsplit =>
      rename_i c rest key text
      have hcs := eq_of_expressionKey? hkey
      rw [(eq_of_splitExpression hsplit).1] at hcs
      have hkey' : key ≠ [] := by
        rintro rfl
        cases hcs
        cases hplain.symbol
      obtain ⟨c', key, rfl⟩ := List.exists_cons_of_ne_nil hkey'
      exact ⟨c', key ++ ':' :: text, by rw [hcs]; simp⟩
  | literal hplain hkey =>
      rename_i c rest
      obtain ⟨taken, htaken⟩ := hdrop (fun x => !endsLiteral x) rest
      exact ⟨c, taken, by rw [← htaken]⟩

/-- Dropping characters up to one that stops it is not changed by what stands behind that one. -/
theorem dropWhile_append_stop (p : Char → Bool) {cs : List Char} {c : Char} (hc : c ∈ cs)
    (hp : p c = false) (rest : List Char) :
    cs.dropWhile p ≠ [] ∧ (cs ++ rest).dropWhile p = cs.dropWhile p ++ rest := by
  have hne : cs.dropWhile p ≠ [] := by
    intro hnil
    have := List.dropWhile_eq_nil_iff.mp hnil c hc
    simp [hp] at this
  refine ⟨hne, ?_⟩
  rw [List.dropWhile_append, if_neg (by simpa using hne)]

/-- Taking characters up to one that stops it is not changed by what stands behind that one. -/
theorem takeWhile_append_stop (p : Char → Bool) {cs : List Char} {c : Char} (hc : c ∈ cs)
    (hp : p c = false) (rest : List Char) : (cs ++ rest).takeWhile p = cs.takeWhile p := by
  induction cs with
  | nil => cases hc
  | cons d cs ih =>
      cases hd : p d with
      | false => simp [hd]
      | true =>
          have hmem : c ∈ cs := by
            rcases List.mem_cons.mp hc with rfl | hmem
            · rw [hp] at hd; cases hd
            · exact hmem
          simp [hd, ih hmem]

/-- A line feed at the end of a text stands in what follows its first character, if that is none. -/
theorem EndsLine.mem_tail {c : Char} {rest : List Char} (h : EndsLine (c :: rest)) (hc : c ≠ '\n') :
    '\n' ∈ rest := by
  rcases List.mem_cons.mp h.mem with heq | hmem
  · exact absurd heq.symm hc
  · exact hmem

/-- In front of more text a token stays what it is, if it stands at the start of whole lines.  Only
a gap can reach their end, and then it goes on. -/
theorem Begins.append {cs more : List Char} {kinds : List Kind} (h : Begins cs kinds more)
    (hline : EndsLine cs) (rest : List Char) :
    more ≠ [] ∧ Begins (cs ++ rest) kinds (more ++ rest) ∨
      more = [] ∧ Begins (cs ++ rest) kinds (rest.dropWhile isGap) := by
  cases h with
  -- Only white space can reach the end of the lines, and then takes in that of the rest.
  | gap rest' hgap =>
      have hdrop : (rest' ++ rest).dropWhile isGap = if (rest'.dropWhile isGap).isEmpty then
          rest.dropWhile isGap else rest'.dropWhile isGap ++ rest := List.dropWhile_append
      by_cases hend : rest'.dropWhile isGap = []
      · rw [if_pos (by simp [hend])] at hdrop
        exact .inr ⟨hend, by rw [← hdrop]; exact .gap _ hgap⟩
      · rw [if_neg (by simpa using hend)] at hdrop
        exact .inl ⟨hend, by rw [← hdrop]; exact .gap _ hgap⟩
  | comment rest' =>
      have hmem := hline.mem_tail (by decide)
      obtain ⟨hne, hdrop⟩ := dropWhile_append_stop (fun x => !endsComment x) hmem rfl rest
      exact .inl ⟨hne, by rw [← hdrop]; exact .comment _⟩
  | expressionEnd rest' =>
      refine .inl ⟨?_, .expressionEnd _⟩
      rintro rfl
      exact absurd hline (by decide)
  | quoted hsplit =>
      refine .inl ⟨?_, .quoted (splitQuoted_append hsplit rest)⟩
      rintro rfl
      rw [eq_of_splitQuoted hsplit] at hline
      rw [← List.cons_append, EndsLine, List.getLast?_append] at hline
      cases hline
  | symbol rest' hsymbol =>
      refine .inl ⟨?_, .symbol _ hsymbol⟩
      rintro rfl
      cases hline
      cases hsymbol
  | expression hplain hkey hsplit =>
      rename_i c rest' key text
      obtain ⟨_, more', hmore⟩ := eq_of_splitExpression hsplit
      have hlength : key.length + 1 ≤ (c :: rest').length := by
        rw [eq_of_expressionKey? hkey]
        simp
      refine .inl ⟨by simp [hmore], .expression hplain ?_ ?_⟩
      · show expressionKey? (c :: rest' ++ rest) = some key
        rw [expressionKey?_append hline, hkey]
      · show splitExpression ((c :: rest' ++ rest).drop (key.length + 1)) =
          some (text, more ++ rest)
        rw [List.drop_append_of_le_length hlength]
        exact splitExpression_append hsplit rest
  | literal hplain hkey =>
      rename_i c rest'
      have hmem : '\n' ∈ rest' := hline.mem_tail (by rintro rfl; cases hplain.gap)
      obtain ⟨hne, hdrop⟩ := dropWhile_append_stop (fun x => !endsLiteral x) hmem rfl rest
      have htake := takeWhile_append_stop (fun x => !endsLiteral x) hmem rfl rest
      have hkey' : expressionKey? (c :: rest' ++ rest) = none := by
        rw [expressionKey?_append hline, hkey]
      exact .inl ⟨hne, by rw [← hdrop, ← htake]; exact .literal hplain hkey'⟩

/-! ## Runs of tokens -/

/-- Between the start of a text and another place in it stand tokens of these kinds. -/
inductive Lexes : List Char → List Kind → List Char → Prop
  | nil (text : List Char) : Lexes text [] text
  | cons {text mid more : List Char} {kinds kinds' : List Kind} : Begins text kinds mid →
      Lexes mid kinds' more → Lexes text (kinds ++ kinds') more

/-- Runs of tokens can be joined where one ends and the other starts. -/
theorem Lexes.trans {text mid more : List Char} {kinds kinds' : List Kind}
    (h : Lexes text kinds mid) (h' : Lexes mid kinds' more) :
    Lexes text (kinds ++ kinds') more := by
  induction h with
  | nil => exact h'
  | cons hbegins _ ih =>
      rw [List.append_assoc]
      exact .cons hbegins (ih h')

theorem Begins.lexes {text more : List Char} {kinds : List Kind} (h : Begins text kinds more) :
    Lexes text kinds more := by
  simpa using Lexes.cons h (.nil more)

/-- The tokens of whole lines stay what they are in front of any other text; a gap at their end goes
on. -/
theorem Lexes.append {text : List Char} {kinds : List Kind} (h : Lexes text kinds [])
    (hline : EndsLine text) (rest : List Char) :
    Lexes (text ++ rest) kinds (rest.dropWhile isGap) := by
  generalize hnil : ([] : List Char) = more at h
  induction h with
  | nil => subst hnil; cases hline
  | cons hbegins hlexes ih =>
      rename_i text mid more kinds kinds'
      subst hnil
      rcases hbegins.append hline rest with ⟨hne, happend⟩ | ⟨rfl, happend⟩
      · obtain ⟨c, taken, htext⟩ := hbegins.exists_append
        rw [htext, ← List.cons_append] at hline
        exact .cons happend (ih (hline.of_append hne) rfl)
      · -- Nothing is left behind a gap that reaches the end.
        cases hlexes with
        | nil => exact .cons happend (.nil _)
        | cons hbegins' _ =>
            obtain ⟨_, _, hcons⟩ := hbegins'.exists_append
            cases hcons

/-- No token starts with the character that ends a text. -/
theorem Begins.ne_endMark {c : Char} {rest more : List Char} {kinds : List Kind}
    (h : Begins (c :: rest) kinds more) : c ≠ endMark := by
  cases h with
  | gap _ hgap => rintro rfl; cases hgap
  | comment => decide
  | expressionEnd => decide
  | quoted => decide
  | symbol _ hsymbol => rintro rfl; cases hsymbol
  | expression hplain => exact hplain.mark
  | literal hplain => exact hplain.mark

/-- The tokens that the lexer gives are a run up to the character that ends the text. -/
theorem lexes_of_scan {fuel line : Nat} {text : List Char} {ts : List Token}
    (h : scan fuel line text = .ok ts) :
    ∃ kinds rest, Lexes text kinds (endMark :: rest) ∧ kindsOf ts = kinds ++ [.streamEnd] := by
  induction fuel generalizing line text ts with
  | zero => cases h
  | succ fuel ih =>
      cases text with
      | nil => cases h
      | cons c rest =>
          rw [scan] at h
          split at h
          · next hmark => cases h; subst hmark; exact ⟨[], rest, .nil _, rfl⟩
          next hmark =>
          split at h
          · cases h
          next found hfound =>
          split at h
          · cases h
          next ts' hscan =>
          cases h
          obtain ⟨kinds, rest', hlexes, hkinds⟩ := ih hscan
          refine ⟨_, rest', .cons (begins_of_lexeme hmark hfound) hlexes, ?_⟩
          rw [kindsOf, List.map_append, List.append_assoc, ← hkinds]
          rfl

/-- A run of tokens up to the character that ends the text is what the lexer gives. -/
theorem scan_of_lexes {text more : List Char} {kinds : List Kind} (h : Lexes text kinds more) :
    ∀ {rest : List Char} (fuel line : Nat), more = endMark :: rest → text.length ≤ fuel →
      ∃ ts, scan fuel line text = .ok ts ∧ kindsOf ts = kinds ++ [.streamEnd] := by
  induction h with
  | nil text =>
      rintro rest fuel line rfl hfuel
      obtain ⟨fuel, rfl⟩ := Nat.exists_eq_succ_of_ne_zero (Nat.ne_zero_of_lt hfuel)
      exact ⟨_, by rw [scan, if_pos rfl], rfl⟩
  | cons hbegins _ ih =>
      rename_i text mid more kinds kinds' hlexes
      rintro rest fuel line rfl hfuel
      obtain ⟨c, taken, rfl⟩ := hbegins.exists_append
      obtain ⟨fuel, rfl⟩ := Nat.exists_eq_succ_of_ne_zero (Nat.ne_zero_of_lt hfuel)
      obtain ⟨ts, reached, hlexeme, hkinds⟩ := lexeme_of_begins hbegins line
      -- A token takes a character at least, so one unit of fuel is enough for it.
      have hlength : mid.length ≤ fuel := by
        simp only [List.length_cons, List.length_append] at hfuel
        omega
      obtain ⟨ts', hscan, hkinds'⟩ := ih fuel reached rfl hlength
      refine ⟨ts ++ ts', ?_, ?_⟩
      · rw [scan, if_neg hbegins.ne_endMark, hlexeme]
        dsimp only
        rw [hscan]
      · rw [kindsOf, List.map_append, List.append_assoc, ← hkinds, ← hkinds']
        rfl

/-! ## White space between parts -/

/-- Kinds without the gap in front. -/
def dropGap : List Kind → List Kind
  | .gap :: kinds => kinds
  | kinds => kinds

/-- A spelling stays one without the gap in front of it. -/
theorem Spelled.dropGap {kinds : List Kind} {items : List Item} (h : Spelled kinds items) :
    Spelled (dropGap kinds) items := by
  unfold Lookml.dropGap
  split
  · exact h.of_gap_cons rfl
  · exact h

theorem dropWhile_isGap_of_not {c : Char} (h : isGap c = false) (rest : List Char) :
    (c :: rest).dropWhile isGap = c :: rest :=
  List.dropWhile_cons_of_neg (by simp [h])

/-- White space is dropped at once. -/
theorem dropWhile_isGap_idem (text : List Char) :
    (text.dropWhile isGap).dropWhile isGap = text.dropWhile isGap := by
  induction text with
  | nil => rfl
  | cons c text ih =>
      cases h : isGap c with
      | true => rw [List.dropWhile_cons_of_pos h, ih]
      | false => rw [dropWhile_isGap_of_not h, dropWhile_isGap_of_not h]

/-- A token takes the white space in front of it, or there is none. -/
theorem Begins.dropGap {text mid : List Char} {kinds : List Kind} (h : Begins text kinds mid)
    (kinds' : List Kind) :
    text.dropWhile isGap = mid ∧ Lookml.dropGap (kinds ++ kinds') = kinds' ∨
      text.dropWhile isGap = text ∧ Lookml.dropGap (kinds ++ kinds') = kinds ++ kinds' := by
  cases h with
  | gap rest hgap => exact .inl ⟨List.dropWhile_cons_of_pos hgap, rfl⟩
  | comment => exact .inr ⟨rfl, rfl⟩
  | expressionEnd => exact .inr ⟨rfl, rfl⟩
  | quoted => exact .inr ⟨rfl, rfl⟩
  | symbol _ hsymbol =>
      refine .inr ⟨dropWhile_isGap_of_not (symbol?_ne hsymbol).1 _, ?_⟩
      unfold symbol? at hsymbol
      split at hsymbol <;> cases hsymbol <;> rfl
  | expression hplain => exact .inr ⟨dropWhile_isGap_of_not hplain.gap _, rfl⟩
  | literal hplain => exact .inr ⟨dropWhile_isGap_of_not hplain.gap _, rfl⟩

/-- A run of tokens behind white space is the run without the gap in front. -/
theorem Lexes.dropGap {text more : List Char} {kinds : List Kind} (h : Lexes text kinds more)
    (hmore : more.dropWhile isGap = more) :
    Lexes (text.dropWhile isGap) (Lookml.dropGap kinds) more := by
  cases h with
  | nil => rw [hmore]; exact .nil _
  | cons hbegins hlexes =>
      rename_i mid kinds kinds'
      rcases hbegins.dropGap kinds' with ⟨htext, hkinds⟩ | ⟨htext, hkinds⟩
      · rwa [htext, hkinds]
      · rw [htext, hkinds]
        exact .cons hbegins hlexes

/-- Between two places of a text stand tokens of these kinds, apart from the white space right
behind either place. -/
def Spans (text : List Char) (kinds : List Kind) (more : List Char) : Prop :=
  Lexes (text.dropWhile isGap) kinds (more.dropWhile isGap)

theorem Spans.nil (text : List Char) : Spans text [] text := Lexes.nil _

/-- Runs without the white space in front can be joined. -/
theorem Spans.trans {text mid more : List Char} {kinds kinds' : List Kind}
    (h : Spans text kinds mid) (h' : Spans mid kinds' more) : Spans text (kinds ++ kinds') more :=
  Lexes.trans h h'

/-- Whole lines in front of any text. -/
theorem Lexes.spans {text : List Char} {kinds : List Kind} (h : Lexes text kinds [])
    (hline : text = [] ∨ EndsLine text) (rest : List Char) :
    Spans (text ++ rest) (Lookml.dropGap kinds) rest := by
  rcases hline with rfl | hline
  · cases h with
    | nil => exact Spans.nil rest
    | cons hbegins _ =>
        obtain ⟨_, _, hcons⟩ := hbegins.exists_append
        cases hcons
  · exact (h.append hline rest).dropGap (dropWhile_isGap_idem rest)

/-- The white space in front of a text is one gap or none. -/
theorem exists_gap (text : List Char) :
    ∃ gaps, Spacing gaps ∧ Lexes text gaps (text.dropWhile isGap) := by
  cases text with
  | nil => exact ⟨[], by simp [Spacing], .nil _⟩
  | cons c rest =>
      cases hgap : isGap c with
      | true =>
          refine ⟨[.gap], by simp [Spacing, Kind.isTrivia], ?_⟩
          rw [List.dropWhile_cons_of_pos hgap]
          exact (Begins.gap rest hgap).lexes
      | false =>
          rw [dropWhile_isGap_of_not hgap]
          exact ⟨[], by simp [Spacing], .nil _⟩

/-- A token with the white space behind it. -/
theorem Begins.spans {text more : List Char} {kinds : List Kind} (h : Begins text kinds more)
    (hgap : text.dropWhile isGap = text) :
    ∃ gaps, Spacing gaps ∧ Spans text (kinds ++ gaps) more := by
  obtain ⟨gaps, hgaps, hlexes⟩ := exists_gap more
  refine ⟨gaps, hgaps, ?_⟩
  rw [Spans, hgap]
  exact .cons h hlexes

/-- White space in front of a run does not matter. -/
theorem spans_gap {gaps text more : List Char} {kinds : List Kind}
    (hgaps : ∀ c ∈ gaps, isGap c = true) (h : Spans text kinds more) :
    Spans (gaps ++ text) kinds more := by
  rwa [Spans, List.dropWhile_append_of_pos hgaps]

/-! ## Words -/

/-- A text that is one literal wherever a character that ends literals follows, unless it is the
name of an expression parameter in front of a colon. -/
structure Word (word : List Char) : Prop where
  start : ∃ c rest, word = c :: rest ∧ Plain c
  inside : ∀ c ∈ word, endsLiteral c = false

instance : (word : List Char) → Decidable (Word word)
  | [] => isFalse fun h => by
      obtain ⟨c, rest, hnil, _⟩ := h.start
      cases hnil
  | c :: rest =>
    decidable_of_iff (Plain c ∧ (c :: rest).all fun x => !endsLiteral x)
      ⟨fun ⟨hplain, hinside⟩ => ⟨⟨c, rest, rfl, hplain⟩, by simpa using hinside⟩, fun h => by
        obtain ⟨d, more, hcons, hplain⟩ := h.start
        cases hcons
        exact ⟨hplain, by simpa using h.inside⟩⟩

/-- A word is taken up to the character that ends it. -/
theorem takeWhile_word {word : List Char} (hword : ∀ c ∈ word, endsLiteral c = false) {c : Char}
    (hc : endsLiteral c = true) (rest : List Char) :
    ((word ++ c :: rest).takeWhile fun x => !endsLiteral x) = word := by
  rw [List.takeWhile_append_of_pos (by simpa using hword)]
  simp [hc]

/-- What is left behind a word starts with the character that ends it. -/
theorem dropWhile_word {word : List Char} (hword : ∀ c ∈ word, endsLiteral c = false) {c : Char}
    (hc : endsLiteral c = true) (rest : List Char) :
    ((word ++ c :: rest).dropWhile fun x => !endsLiteral x) = c :: rest := by
  rw [List.dropWhile_append_of_pos (by simpa using hword)]
  simp [hc]

/-- Only the name of an expression parameter in front of a colon starts an expression. -/
theorem expressionKey?_word {word : List Char} (hword : ∀ c ∈ word, endsLiteral c = false)
    {c : Char} (hc : endsLiteral c = true) (hkey : c ≠ ':' ∨ word ∉ expressionKeys)
    (rest : List Char) : expressionKey? (word ++ c :: rest) = none := by
  rw [expressionKey?, List.find?_eq_none]
  intro key hmem hprefix
  obtain ⟨more, hmore⟩ := List.isPrefixOf_iff_prefix.mp hprefix
  rw [List.append_assoc, List.singleton_append] at hmore
  have hcolon : endsLiteral ':' = true := by decide
  have htake := takeWhile_word (endsLiteral_expressionKeys key hmem) hcolon more
  have hdrop := dropWhile_word (endsLiteral_expressionKeys key hmem) hcolon more
  -- Both the word and the name of the parameter are cut off at the same character, so they are
  -- equal.
  rw [hmore, takeWhile_word hword hc] at htake
  rw [hmore, dropWhile_word hword hc] at hdrop
  cases hdrop
  rcases hkey with hne | hnot
  · exact hne rfl
  · exact hnot (htake ▸ hmem)

/-- A word is one literal in front of a character that ends it. -/
theorem Word.begins {word : List Char} (h : Word word) {c : Char} (hc : endsLiteral c = true)
    (hkey : c ≠ ':' ∨ word ∉ expressionKeys) (rest : List Char) :
    Begins (word ++ c :: rest) [.literal word] (c :: rest) := by
  obtain ⟨⟨d, tail, rfl, hplain⟩, hinside⟩ := h
  have htail : ∀ c ∈ tail, endsLiteral c = false :=
    fun c hmem => hinside c (List.mem_cons_of_mem _ hmem)
  have hnone : expressionKey? (d :: (tail ++ c :: rest)) = none :=
    expressionKey?_word hinside hc hkey rest
  have hbegins := Begins.literal hplain hnone
  rwa [takeWhile_word htail hc, dropWhile_word htail hc] at hbegins

theorem Word.dropWhile_isGap {word : List Char} (h : Word word) (rest : List Char) :
    (word ++ rest).dropWhile isGap = word ++ rest := by
  obtain ⟨⟨c, tail, rfl, hplain⟩, _⟩ := h
  exact dropWhile_isGap_of_not hplain.gap _

/-- A text without quotes and backslashes in quotes. -/
theorem splitQuoted_plain {text : List Char} (hquote : '"' ∉ text) (hescape : '\\' ∉ text)
    (rest : List Char) : splitQuoted (text ++ '"' :: rest) = some (text, rest) := by
  induction text with
  | nil => rfl
  | cons c text ih =>
      have hc : c ≠ '"' := fun h => hquote (h ▸ List.mem_cons_self)
      have hc' : c ≠ '\\' := fun h => hescape (h ▸ List.mem_cons_self)
      rw [List.cons_append, splitQuoted_cons hc' hc,
        ih (fun h => hquote (List.mem_cons_of_mem _ h)) fun h => hescape (List.mem_cons_of_mem _ h)]
      rfl

end LookmlProject.Lookml
