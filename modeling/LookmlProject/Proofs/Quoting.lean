import LookmlProject.Proofs.Containment

/-! # Descriptions that can be read back

    A description is written between quotes as it is.  The lexer ends a quoted text at the
    first quote that no backslash takes along, and keeps the backslashes:

    * so quotes can hold some texts only (`Enclosed`), and the values of quoted texts are
      exactly those (`enclosed_iff_splitQuoted`);
    * the line that describes a field with such a text is a key, a colon, the text and a
      comment, and with any other text it is not (`spans_descriptionLine_iff`);
    * in a document with the line inside a field, the text is the description of the field
      exactly if quotes can hold it (`description_read_back_iff`); with another text the
      document is not read, or it has another description there (`quote_not_read_back`). -/

namespace LookmlProject.Lookml

/-! ## Texts in quotes -/

/-- The texts that quotes can hold: a backslash takes the next character along, and no other quote
stands in them. -/
inductive Enclosed : List Char → Prop
  | nil : Enclosed []
  | escaped (c : Char) {rest : List Char} : Enclosed rest → Enclosed ('\\' :: c :: rest)
  | plain {c : Char} {rest : List Char} : c ≠ '\\' → c ≠ '"' → Enclosed rest →
      Enclosed (c :: rest)

theorem Enclosed.splitQuoted_append {text : List Char} (h : Enclosed text) (rest : List Char) :
    splitQuoted (text ++ '"' :: rest) = some (text, rest) := by
  induction h with
  | nil => rfl
  | escaped c _ ih => rw [List.cons_append, List.cons_append, splitQuoted, ih]; rfl
  | plain hescape hquote _ ih =>
      rw [List.cons_append, splitQuoted_cons hescape hquote, ih]
      rfl

theorem Enclosed.of_splitQuoted {cs text more : List Char}
    (h : splitQuoted cs = some (text, more)) : Enclosed text := by
  induction cs using splitQuoted.induct generalizing text more with
  | case1 => cases h
  | case2 => cases h
  | case3 c cs ih =>
      rw [splitQuoted, Option.map_eq_some_iff] at h
      obtain ⟨found, hfound, heq⟩ := h
      cases heq
      exact .escaped c (ih hfound)
  | case4 cs => cases h; exact .nil
  | case5 c cs hlast hescaped hquote ih =>
      have hescape : c ≠ '\\' := by
        rintro rfl
        cases cs with
        | nil => exact hlast rfl rfl
        | cons c' cs => exact hescaped c' cs rfl rfl
      rw [splitQuoted_cons hescape hquote, Option.map_eq_some_iff] at h
      obtain ⟨found, hfound, heq⟩ := h
      cases heq
      exact .plain hescape hquote (ih hfound)

/-- The values of quoted texts are the texts that quotes can hold. -/
theorem enclosed_iff_splitQuoted (text : List Char) :
    Enclosed text ↔ ∃ cs more, splitQuoted cs = some (text, more) :=
  ⟨fun h => ⟨_, _, h.splitQuoted_append []⟩, fun ⟨_, _, h⟩ => .of_splitQuoted h⟩

instance (text : List Char) : Decidable (Enclosed text) :=
  decidable_of_iff (splitQuoted (text ++ ['"']) = some (text, []))
    ⟨.of_splitQuoted, fun h => h.splitQuoted_append []⟩

/-! ## The tokens of a description line -/

/-- Behind the first of some tokens stand the others. -/
theorem Lexes.cut {text mid : List Char} {kinds : List Kind} (h : Lexes text kinds mid) :
    ∀ {more : List Kind} {last : List Char}, Lexes text (kinds ++ more) last →
      Lexes mid more last := by
  induction h with
  | nil => intro more last hall; exact hall
  | @cons text mid _ kinds kinds' hbegins _ ih =>
      intro more last hall
      rw [List.append_assoc] at hall
      generalize hsplit : kinds ++ (kinds' ++ more) = all at hall
      cases hall with
      | nil =>
          obtain rfl := (List.append_eq_nil_iff.mp hsplit).1
          exact nomatch hbegins
      | cons hbegins' hrest =>
          obtain ⟨rfl, rfl⟩ := hbegins.unique hbegins'
          exact ih (by rwa [List.append_cancel_left hsplit])

/-- A quote starts a quoted text. -/
theorem Begins.eq_quoted {rest more : List Char} {kinds : List Kind}
    (h : Begins ('"' :: rest) kinds more) :
    ∃ text, kinds = [.quoted text] ∧ splitQuoted rest = some (text, more) := by
  cases h with
  | gap _ hgap => exact nomatch hgap
  | quoted hsplit => exact ⟨_, rfl, hsplit⟩
  | symbol _ hsymbol => exact nomatch hsymbol
  | expression hplain => exact absurd rfl hplain.quote
  | literal hplain => exact absurd rfl hplain.quote

/-- Behind a quote stand no tokens, or a text that quotes can hold is the first. -/
theorem Lexes.eq_quoted_cons {rest last : List Char} {kinds : List Kind}
    (h : Lexes ('"' :: rest) kinds last) :
    (kinds = [] ∧ last = '"' :: rest) ∨
      ∃ text more, Enclosed text ∧ kinds = .quoted text :: more := by
  cases h with
  | nil => exact .inl ⟨rfl, rfl⟩
  | cons hbegins _ =>
      obtain ⟨text, rfl, hsplit⟩ := hbegins.eq_quoted
      exact .inr ⟨text, _, .of_splitQuoted hsplit, rfl⟩

/-! ## A quoted text at a place -/

/-- A key with white space behind its colon. -/
theorem keyOf_gap (key : List Char) : KeyOf [.literal key, .colon, .gap] (String.ofList key) := by
  have hgap : Spacing [.gap] := by simp [Spacing, Kind.isTrivia]
  exact @KeyOf.mk key [] [.gap] (by simp [Spacing]) hgap

/-- Items that start with a key and a quoted text start with that parameter. -/
theorem Spelled.eq_pair_cons {kinds tail more : List Kind} {items : List Item}
    {key text : List Char} (h : Spelled kinds items) (htail : Stops tail)
    (heq : .literal key :: .colon :: .gap :: .quoted text :: more = kinds ++ tail) :
    ∃ others, items = .pair (String.ofList key) (String.ofList text) :: others := by
  obtain ⟨_, hstart⟩ := eq_literal_cons_of_stops htail heq
  obtain ⟨first, rest, item, others, rfl, rfl, ⟨hkey, hitem⟩, _⟩ := h.uncons hstart
  obtain ⟨kind, behind, rfl, hkind⟩ := hitem.eq_cons
  rw [List.append_assoc, List.append_assoc, List.cons_append] at heq
  obtain ⟨_, rfl, rfl, _⟩ := (keyOf_gap key).unique hkey rfl hkind heq
  refine ⟨others, ?_⟩
  cases hitem with
  | value hvalue => cases hvalue; rfl

/-- **A QUOTED TEXT AT A PLACE**: the lines above a place leave blocks open, and at the place stands
a key with a quote behind it.  If the document is read, it has a parameter of that key there, and
the value is a text that quotes can hold. -/
theorem parse_quoted {above below value : List Char} {kinds : List Kind} {stack : List OpenBlock}
    {key : List Char} {own items : List Item} (hlexes : Lexes above kinds [])
    (hline : EndsLine above) (hopens : Opens kinds stack own)
    (hkey : Lexes ((below ++ [endMark]).dropWhile isGap) [.literal key, .colon, .gap]
      ('"' :: value))
    (hparse : parse (above ++ below) = .ok items) :
    ∃ text context others, Enclosed text ∧ Context stack context ∧
      items = context (own ++ .pair (String.ofList key) (String.ofList text) :: others) := by
  obtain ⟨all, rest, spelling, closing, hall, hspelled, hclosing, hkinds⟩ := lexes_of_parse hparse
  obtain ⟨gaps, tail, hgaps, htail, rfl⟩ := hclosing.stops
  have hbody : Spelled (spelling ++ gaps) items := by
    simpa using hspelled.append (.of_spacing hgaps)
  rw [List.append_assoc] at hall
  obtain ⟨atPlace, rfl, hplace⟩ :=
    (hlexes.append hline (below ++ [endMark])).split (atEnd_endMark rest) hall
  obtain ⟨behind, rfl, hbehind⟩ := hkey.split (atEnd_endMark rest) hplace
  rcases hbehind.eq_quoted_cons with ⟨_, hend⟩ | ⟨text, more, htext, rfl⟩
  · cases (List.cons.inj hend).1
  have heq : kinds ++ (.literal key :: .colon :: .gap :: .quoted text :: (more ++ [.streamEnd])) =
      (spelling ++ gaps) ++ tail := by
    rw [List.append_assoc, ← hkinds]
    simp
  obtain ⟨context, inside, rest', others, hcontext, hrest', hinside, hothers, rfl, _⟩ :=
    hopens.context hbody (allKeyed_of_parse hparse) htail (free_literal _ _) heq
  obtain ⟨others, rfl⟩ := hothers.eq_pair_cons hrest' hinside
  exact ⟨text, context, others, htext, hcontext, rfl⟩

end LookmlProject.Lookml

namespace LookmlProject.Update

open Lookml Edit

/-- What stands behind the key of a description line. -/
def valuePart (text rest : List Char) : List Char :=
  '"' :: (text ++ '"' :: ('\t' :: (comment ++ '\n' :: rest)))

/-- The kinds of the key of a description. -/
def keyKinds : List Kind := [.literal "description".toList, .colon, .gap]

/-- The kinds of the tokens of a description line, from the key on. -/
def descriptionKinds (text : List Char) : List Kind :=
  keyKinds ++ [.quoted text, .gap, .comment, .gap]

/-- A description line starts with its key. -/
theorem lexes_key (text rest : List Char) :
    Lexes ((descriptionLine text ++ rest).dropWhile isGap) keyKinds (valuePart text rest) := by
  have hword : Word "description".toList := by decide
  have hline : (descriptionLine text ++ rest).dropWhile isGap =
      "description".toList ++ ':' :: (' ' :: valuePart text rest) := by
    unfold descriptionLine valuePart
    simp only [List.append_assoc, List.cons_append, List.nil_append]
    rfl
  rw [hline]
  refine .cons (hword.begins (by decide) (.inr (by decide)) _) ?_
  refine .cons (.symbol _ rfl) (Begins.lexes ?_)
  exact .gap (valuePart text rest) rfl

/-- Behind its text a description line goes on with a comment. -/
theorem lexes_comment (rest : List Char) :
    Lexes ('\t' :: (comment ++ '\n' :: rest)) [.gap, .comment, .gap] (rest.dropWhile isGap) := by
  have hinside : ∀ c ∈ comment.tail, (!endsComment c) = true :=
    List.all_eq_true.mp (by decide)
  have hcomment := Begins.comment (comment.tail ++ '\n' :: rest)
  rw [List.dropWhile_append_of_pos hinside] at hcomment
  refine .cons (.gap (comment ++ '\n' :: rest) rfl) ?_
  exact .cons hcomment (Begins.gap rest rfl).lexes

/-- **THE TOKENS OF A DESCRIPTION LINE**, in front of any text, are its key, its text and a comment
exactly if quotes can hold the text. -/
theorem spans_descriptionLine_iff (text rest : List Char) :
    Spans (descriptionLine text ++ rest) (descriptionKinds text) rest ↔ Enclosed text := by
  constructor
  · intro h
    rcases ((lexes_key text rest).cut h).eq_quoted_cons with ⟨hnil, _⟩ | ⟨found, _, hfound, hcons⟩
    · exact nomatch hnil
    · cases hcons
      exact hfound
  · intro h
    have hquoted : Begins (valuePart text rest) [.quoted text]
        ('\t' :: (comment ++ '\n' :: rest)) :=
      .quoted (h.splitQuoted_append _)
    exact (lexes_key text rest).trans (.cons hquoted (lexes_comment rest))

/-- A text that quotes can hold is read from its line as the description. -/
theorem whole_of_enclosed {text : String} (h : Enclosed text.toList) :
    Whole (descriptionLine text.toList) [.pair "description" text] := by
  intro rest
  refine ⟨_, (spans_descriptionLine_iff text.toList rest).mpr h, ?_⟩
  have hvalue : ValueOf [.quoted text.toList] text := by
    have hquoted := ValueOf.quoted text.toList
    rwa [String.ofList_toList] at hquoted
  refine Spelled.pair (keyOf_gap "description".toList) hvalue (.of_spacing ?_)
  simp [Spacing, Kind.isTrivia]

/-! ## Descriptions in documents -/

namespace Spot

/-- Another document with the same items above a place in the field: those of the field from the
place on and those behind the field and its view are others. -/
def goOn (spot : Spot) (own rest after : List Item) : Spot :=
  { spot with own := own, rest := rest, after := after }

/-- Documents with the same items above a place in the field have the same item there, if they are
the same. -/
theorem eq_of_items_eq_goOn {spot : Spot} {entry : Entry} {item found : Item}
    {first rest others behind after : List Item}
    (h : (spot.withOwn (first ++ item :: rest)).items entry =
      (spot.goOn (first ++ found :: others) behind after).items entry) : found = item := by
  simp only [withOwn, goOn, items, inner, List.append_cancel_left_eq, List.cons.injEq,
    Item.block.injEq, true_and] at h
  exact h.1.1.1.symm

/-- If a document with a description line in a field is read, there is a description at the place
of the line, and quotes can hold it. -/
theorem exists_enclosed {spot : Spot} {entry : Entry} {above below text title : List Char}
    {kinds : List Kind} {first items : List Item} (hlexes : Lexes above kinds [])
    (hends : EndsLine above)
    (hopens : Opens kinds
      [⟨entry.kind, entry.name.toList, spot.first⟩, ⟨"view", title, spot.before⟩] first)
    (htitle : spot.title = String.ofList title)
    (hparse : parse (above ++ (descriptionLine text ++ below)) = .ok items) :
    ∃ found others behind after, Enclosed found ∧ items = (spot.goOn
      (first ++ .pair "description" (String.ofList found) :: others) behind after).items entry := by
  have hkey := lexes_key text (below ++ [endMark])
  rw [← List.append_assoc] at hkey
  obtain ⟨found, context, others, hfound, hcontext, rfl⟩ :=
    parse_quoted hlexes hends hopens hkey hparse
  obtain ⟨spot', hbefore, htitle', hfirst, hspot⟩ := exists_of_context hcontext
  refine ⟨found, others, spot'.rest, spot'.after, hfound, ?_⟩
  rw [hspot, String.ofList_toList, goOn, ← hbefore, htitle, ← htitle', ← hfirst]
  rfl

end Spot

/-- **READ BACK**: a document is read, and a line with a definition is put inside a field of it, on
a line of its own and instead of the old description, if there is one.

* The line is the key of a description, the definition in quotes and a comment, and nothing else,
  exactly if quotes can hold the definition.
* If the field has no other description, then exactly in that case the document is read with the
  definition as the description of the field, and with no other item changed.
* Whenever the document is read, there is a description at the place, and quotes can hold it.
* Quotes around whatever text have the definition as their value only if they can hold it. -/
theorem description_read_back_iff {entry : Entry} {old : Option String}
    {above lines below : List Char} {items : List Item}
    (hinside : Inside entry.kind entry.name above) (hlines : Whole lines (oldItem old))
    (hbelow : startsBlock false below = false)
    (hparse : parse (above ++ (lines ++ below)) = .ok items) :
    (∀ rest, Spans (descriptionLine entry.definition.toList ++ rest)
        (descriptionKinds entry.definition.toList) rest ↔ Enclosed entry.definition.toList) ∧
      (∃ (spot : Spot) (first rest : List Item),
        items = (spot.withOwn (first ++ (oldItem old ++ rest))).items entry ∧
        (NoDescription (first ++ rest) →
          (parse (above ++ (descriptionLine entry.definition.toList ++ below)) =
            .ok ((spot.withOwn (first ++ .pair "description" entry.definition :: rest)).items
              entry) ↔ Enclosed entry.definition.toList)) ∧
        ∀ items', parse (above ++ (descriptionLine entry.definition.toList ++ below)) =
            .ok items' →
          ∃ found others behind after, Enclosed found ∧ items' = (spot.goOn
            (first ++ .pair "description" (String.ofList found) :: others) behind after).items
              entry) ∧
      ((∃ text more, splitQuoted text = some (entry.definition.toList, more)) ↔
        Enclosed entry.definition.toList) := by
  obtain ⟨kinds, title, before, front, first, hlexes, hopens⟩ := hinside.opens
  obtain ⟨spot, rest, rfl, htitle, rfl, hitems, hnew⟩ := Spot.parse_line hlexes hinside.line hopens
    hlines hbelow hparse
  refine ⟨fun rest => spans_descriptionLine_iff _ rest,
    ⟨spot, first, rest, hitems, fun hplain => ⟨fun hread => ?_, fun henclosed => ?_⟩,
      fun items' => Spot.exists_enclosed hlexes hinside.line hopens htitle⟩,
    (enclosed_iff_splitQuoted _).symm⟩
  · obtain ⟨found, others, behind, after, henclosed, heq⟩ :=
      Spot.exists_enclosed hlexes hinside.line hopens htitle hread
    have hsame := Spot.eq_of_items_eq_goOn heq
    injection hsame with _ hvalue
    rw [← hvalue, String.toList_ofList]
    exact henclosed
  · exact hnew (whole_of_enclosed henclosed) hplain

namespace Noted

/-- The lines above a place in a field. -/
def above : List Char := "view: v \x7b\n  dimension: a \x7b\n    type: string\n".toList

/-- The lines below the place. -/
def below : List Char := "    sql: x ;;\n  \x7d\n\x7d\n".toList

/-- The document with a description at the place. -/
def described (text : String) : List Char := above ++ (descriptionLine text.toList ++ below)

/-- A definition with quotes, a comment sign, braces, a line end and backslashes. -/
def entry : Entry :=
  ⟨"dimension", "a", "say \\\"hi\\\" # \x7b;;\x7d\nin C:\\\\"⟩

/-- The keys of the items of the field. -/
def fieldKeys (items : List Item) : Option (List String) := do
  let view ← soleView? items
  let own ← soleField? "dimension" "a" view.2
  return own.map Item.key

end Noted

/-- The definition is read back. -/
theorem noted_read_back :
    Enclosed Noted.entry.definition.toList ∧ ∃ spot : Spot,
      parse (Noted.described Noted.entry.definition) = .ok (spot.items Noted.entry) ∧
      spot.DescribedBy (some Noted.entry.definition) := by
  have henclosed : Enclosed Noted.entry.definition.toList := by decide +kernel
  refine ⟨henclosed, ?_⟩
  have hfound : ((parse (Noted.above ++ ([] ++ Noted.below))).toOption.bind
      (soleDescription? "dimension" "a")) = some none := by decide +kernel
  cases hparse : parse (Noted.above ++ ([] ++ Noted.below)) with
  | error fault => rw [hparse] at hfound; cases hfound
  | ok items =>
      rw [hparse] at hfound
      obtain ⟨_, ⟨spot, first, rest, hitems, hread, _⟩, _⟩ := @description_read_back_iff Noted.entry
        none _ [] _ _ (by decide +kernel) .nil (by decide +kernel) hparse
      -- The field has no description, so the only one is the one that is put in.
      obtain ⟨spot', hspot, hsole, hdescribed⟩ := @exists_spot Noted.entry _ _ (by decide) hfound
      rw [hspot] at hitems
      obtain rfl := hsole.eq hitems
      have hplain : NoDescription (first ++ rest) :=
        (@filter_described_iff first rest none).mp hdescribed
      refine ⟨_, (hread hplain).mpr henclosed, ?_⟩
      exact (@filter_described_iff first rest (some Noted.entry.definition)).mpr hplain

/-- With a quote or a backslash at its end the document is not read, and what stands behind a quote
can be read as another parameter. -/
theorem quote_not_read_back :
    ((parse (Noted.above ++ Noted.below)).toOption.bind Noted.fieldKeys) =
        some ["type", "sql"] ∧
      ((parse (Noted.described "say \"hi\"")).toOption.isNone ∧
        (parse (Noted.described "C:\\")).toOption.isNone) ∧
      ((parse (Noted.described "x\" hidden: yes #")).toOption.bind
        (soleDescription? "dimension" "a")) = some (some "x") ∧
      ((parse (Noted.described "x\" hidden: yes #")).toOption.bind Noted.fieldKeys) =
        some ["type", "description", "hidden", "sql"] := by
  decide +kernel

end LookmlProject.Update
