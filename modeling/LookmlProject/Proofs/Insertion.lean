import LookmlProject.Proofs.Places

/-!
# Lines put into a document

Whole lines of a document are replaced by others, and the document is read again.

  * The tokens of a text are determined by it (`Lexes.split`), so those of a document are those of
    its parts.
  * `Inside` says of the text above a place that it leaves a field of a view open; `startsBlock`
    says of the text below that it goes on with an opening brace.
  * Where lines are replaced inside a field, the items of the field are replaced, and no others
    (`parse_replaced`).
-/

namespace LookmlProject.Lookml

/-! ## The tokens of a text are determined -/

theorem Begins.unique {text more more' : List Char} {kinds kinds' : List Kind}
    (h : Begins text kinds more) (h' : Begins text kinds' more') :
    kinds = kinds' ∧ more = more' := by
  obtain ⟨c, taken, rfl⟩ := h.exists_append
  obtain ⟨ts, reached, hlexeme, rfl⟩ := lexeme_of_begins h 0
  obtain ⟨ts', reached', hlexeme', rfl⟩ := lexeme_of_begins h' 0
  rw [hlexeme] at hlexeme'
  cases hlexeme'
  exact ⟨rfl, rfl⟩

/-- A text with which no token starts. -/
def AtEnd (text : List Char) : Prop := ∀ kinds more, ¬ Begins text kinds more

theorem atEnd_nil : AtEnd [] := by
  intro kinds more h
  obtain ⟨_, _, hcons⟩ := h.exists_append
  cases hcons

theorem atEnd_endMark (rest : List Char) : AtEnd (endMark :: rest) :=
  fun _ _ h => h.ne_endMark rfl

/-- The tokens up to some place are the first ones of all tokens. -/
theorem Lexes.split {text mid : List Char} {kinds : List Kind} (h : Lexes text kinds mid) :
    ∀ {all : List Kind} {last : List Char}, AtEnd last → Lexes text all last →
      ∃ rest, all = kinds ++ rest ∧ Lexes mid rest last := by
  induction h with
  | nil text =>
      intro all last _ hall
      exact ⟨all, rfl, hall⟩
  | cons hbegins _ ih =>
      intro all last hlast hall
      cases hall with
      | nil => exact absurd hbegins (hlast _ _)
      | cons hbegins' hrest =>
          obtain ⟨rfl, rfl⟩ := hbegins.unique hbegins'
          obtain ⟨rest, rfl, hlexes⟩ := ih hlast hrest
          exact ⟨rest, by rw [List.append_assoc], hlexes⟩

/-! ## Above a place -/

/-- Whether the last of some items is a view, and the last item of that the field of a kind and
name. -/
def endsInField (kind name : String) (items : List Item) : Bool :=
  match items.getLast? with
  | some (.block key (some _) inner) =>
    match inner.getLast? with
    | some (.block key' (some title) _) => key == "view" && key' == kind && title == name
    | _ => false
  | _ => false

/-- A text of whole lines that ends inside the field of a kind and name, behind an item: two closing
braces are what it lacks to be read, and then the field is the last that it holds. -/
structure Inside (kind name : String) (above : List Char) : Prop where
  line : EndsLine above
  tokens : (partKinds? above.length above).isSome = true
  closed : (itemsOf? (above ++ ['\x7d', '\x7d'])).any (endsInField kind name) = true

instance (kind name : String) (above : List Char) : Decidable (Inside kind name above) :=
  decidable_of_iff (EndsLine above ∧ (partKinds? above.length above).isSome = true ∧
      (itemsOf? (above ++ ['\x7d', '\x7d'])).any (endsInField kind name) = true)
    ⟨fun ⟨h1, h2, h3⟩ => ⟨h1, h2, h3⟩, fun h => ⟨h.line, h.tokens, h.closed⟩⟩

theorem eq_of_endsInField {kind name : String} {items : List Item}
    (h : endsInField kind name items = true) :
    ∃ before title inner own, items =
      before ++ [.block "view" (some title) (inner ++ [.block kind (some name) own])] := by
  rw [endsInField] at h
  split at h
  · next key title inner hlast =>
      split at h
      · next key' title' own hlast' =>
          simp only [Bool.and_eq_true, beq_iff_eq] at h
          obtain ⟨⟨rfl, rfl⟩, rfl⟩ := h
          obtain ⟨before, rfl⟩ := List.getLast?_eq_some_iff.mp hlast
          obtain ⟨inner', rfl⟩ := List.getLast?_eq_some_iff.mp hlast'
          exact ⟨before, title, inner', own, rfl⟩
      · cases h
  · cases h

/-- The tokens of such a text leave the view and the field open. -/
theorem Inside.opens {kind name : String} {above : List Char} (h : Inside kind name above) :
    ∃ kinds title before first own, Lexes above kinds [] ∧
      Opens kinds [⟨kind, name.toList, first⟩, ⟨"view", title, before⟩] own := by
  obtain ⟨kinds, hkinds⟩ := Option.isSome_iff_exists.mp h.tokens
  have hlexes := lexes_of_partKinds? hkinds
  obtain ⟨items, hitems, hends⟩ := (Option.any_eq_true _ _).mp h.closed
  obtain ⟨before, title, inner, own, rfl⟩ := eq_of_endsInField hends
  obtain ⟨all, hall, hspelled⟩ := spelled_of_itemsOf? hitems
  -- The two braces are tokens of their own.
  have hbraces : Lexes ['\x7d', '\x7d'] [.braceClose, .braceClose] [] :=
    .cons (.symbol _ rfl) (.cons (.symbol _ rfl) (.nil _))
  have htext := (hlexes.append h.line ['\x7d', '\x7d']).trans hbraces
  obtain ⟨rest, rfl, hrest⟩ := htext.split atEnd_nil hall
  obtain rfl : rest = [] := by
    cases hrest with
    | nil => rfl
    | cons hbegins _ => exact absurd hbegins (atEnd_nil _ _)
  rw [List.append_nil] at hspelled
  exact ⟨kinds, title.toList, before, inner, own, hlexes, opens_of_closed hspelled⟩

/-! ## Below a place -/

/-- Whether a text goes on with an opening brace, after white space and comments.  The flag says
that it starts within a comment. -/
def startsBlock : Bool → List Char → Bool
  | _, [] => false
  | true, c :: rest => startsBlock (!endsComment c) rest
  | false, c :: rest =>
    if isGap c then startsBlock false rest
    else if c = '#' then startsBlock true rest
    else c == '\x7b'

theorem startsBlock_append (text : List Char) :
    ∀ inside : Bool, startsBlock inside (text ++ [endMark]) = startsBlock inside text := by
  induction text with
  | nil => decide
  | cons c rest ih =>
      intro inside
      cases inside with
      | true => exact ih _
      | false => rw [List.cons_append, startsBlock, startsBlock, ih, ih]

theorem startsBlock_dropGap (text : List Char) :
    startsBlock false (text.dropWhile isGap) = startsBlock false text := by
  induction text with
  | nil => rfl
  | cons c rest ih =>
      cases hgap : isGap c with
      | true => rw [List.dropWhile_cons_of_pos hgap, ih, startsBlock, if_pos hgap]
      | false => rw [dropWhile_isGap_of_not hgap]

/-- A comment goes on to its end. -/
theorem startsBlock_dropComment (text : List Char) (h : startsBlock true text = false) :
    startsBlock false (text.dropWhile fun x => !endsComment x) = false := by
  induction text with
  | nil => rfl
  | cons c rest ih =>
      rw [startsBlock] at h
      cases hend : endsComment c with
      | false =>
          rw [hend] at h
          rw [List.dropWhile_cons_of_pos (by simp [hend])]
          exact ih h
      | true =>
          rw [hend] at h
          rw [List.dropWhile_cons_of_neg (by simp [hend])]
          rw [endsComment, Bool.or_eq_true, beq_iff_eq, beq_iff_eq] at hend
          rcases hend with rfl | rfl
          · exact h
          · rfl

/-- The tokens of a text that does not go on with an opening brace do not either. -/
theorem Lexes.free {text last : List Char} {kinds : List Kind} (h : Lexes text kinds last)
    (hstart : startsBlock false text = false) : Free (kinds ++ [.streamEnd]) := by
  have hfirst : ∀ {kind : Kind} (more : List Kind), kind.isTrivia = false → kind ≠ .braceOpen →
      Free (kind :: more) := by
    intro kind more htrivia hkind more' heq
    rw [skipKinds_cons htrivia] at heq
    exact hkind (List.cons.inj heq).1
  have hskip : ∀ {kind : Kind} {kinds : List Kind}, kind.isTrivia = true → Free kinds →
      Free (kind :: kinds) := by
    intro kind kinds htrivia hkinds more heq
    rw [skipKinds_gap htrivia] at heq
    exact hkinds more heq
  induction h with
  | nil => exact hfirst [] rfl (by decide)
  | cons hbegins _ ih =>
      rw [List.append_assoc]
      cases hbegins with
      | gap rest hgap =>
          rw [startsBlock, if_pos hgap, ← startsBlock_dropGap] at hstart
          exact hskip rfl (ih hstart)
      | comment rest => exact hskip rfl (ih (startsBlock_dropComment rest hstart))
      | symbol rest hsymbol =>
          refine hfirst _ ?_ ?_
          · unfold symbol? at hsymbol
            split at hsymbol <;> cases hsymbol <;> rfl
          · rintro rfl
            unfold symbol? at hsymbol
            split at hsymbol <;> cases hsymbol
            cases hstart
      | expressionEnd => exact hfirst _ rfl (by decide)
      | quoted => exact hfirst _ rfl (by simp)
      | expression => exact free_literal _ _
      | literal => exact free_literal _ _

/-! ## Other lines at a place -/

/-- The tail of a spelling from the brace or the end that stops it. -/
theorem ClosesItems.stops {kinds : List Kind} (h : ClosesItems kinds) :
    ∃ gaps tail, Spacing gaps ∧ Stops tail ∧ kinds = gaps ++ tail := by
  obtain ⟨kind, more, hskip, hkind⟩ := h
  refine ⟨kinds.takeWhile Kind.isTrivia, skipKinds kinds,
    List.all_eq_true.mp List.all_takeWhile, ⟨kind, more, hskip, hkind⟩, ?_⟩
  rw [skipKinds, List.takeWhile_append_dropWhile]

theorem Stops.closesItems {kinds : List Kind} (h : Stops kinds) : ClosesItems kinds := by
  obtain ⟨kind, more, rfl, hkind⟩ := h
  refine ⟨kind, more, skipKinds_cons ?_ more, hkind⟩
  cases kind <;> cases hkind <;> rfl

/-- In no block of a document that is read a key stands twice. -/
theorem allKeyed_of_parse {text : List Char} {items : List Item} (h : parse text = .ok items) :
    Item.allKeyed items = true := by
  obtain ⟨kinds, rest, spelling, tail, hlexes, hspelled, htail, hkinds⟩ := lexes_of_parse h
  have hparse := parse_of_lexes hlexes hspelled htail (by rw [hkinds])
  cases hkeyed : Item.allKeyed items with
  | true => rfl
  | false =>
      obtain ⟨fault, hfault⟩ := hparse.2 hkeyed
      rw [h] at hfault
      cases hfault

/-- **OTHER LINES AT A PLACE**: a document is read, the lines above a place in it leave blocks open,
and at the place stand whole lines with items.  Then these are items of the innermost of the blocks,
and with other lines in their place the document has other items there, and is otherwise the same,
unless a key stands twice in it. -/
theorem parse_replaced {above old below : List Char} {kinds : List Kind}
    {stack : List OpenBlock} {own olds items : List Item} (hlexes : Lexes above kinds [])
    (hline : EndsLine above) (hopens : Opens kinds stack own) (hold : Whole old olds)
    (hkeyed : Item.allKeyed olds = true) (hbelow : startsBlock false below = false)
    (hparse : parse (above ++ (old ++ below)) = .ok items) :
    ∃ context others, Context stack context ∧ items = context (own ++ (olds ++ others)) ∧
      ∀ {new : List Char} {news : List Item}, Whole new news →
        Item.allKeyed (context (own ++ (news ++ others))) = true →
        parse (above ++ (new ++ below)) = .ok (context (own ++ (news ++ others))) := by
  obtain ⟨all, rest, spelling, closing, hall, hspelled, hclosing, hkinds⟩ := lexes_of_parse hparse
  obtain ⟨gaps, tail, hgaps, htail, rfl⟩ := hclosing.stops
  have hbody : Spelled (spelling ++ gaps) items := by
    simpa using hspelled.append (.of_spacing hgaps)
  -- The tokens of the document: above the place, at the place and below it.
  have habove := hlexes.append hline (old ++ (below ++ [endMark]))
  have htext : above ++ (old ++ below) ++ [endMark] = above ++ (old ++ (below ++ [endMark])) := by
    simp
  rw [htext] at hall
  obtain ⟨kinds', rfl, hplace⟩ := habove.split (atEnd_endMark rest) hall
  obtain ⟨oldKinds, holdSpans, holdSpelled⟩ := hold (below ++ [endMark])
  obtain ⟨belowKinds, rfl, hbelowLexes⟩ := Lexes.split holdSpans (atEnd_endMark rest) hplace
  have hfree : Free (belowKinds ++ [.streamEnd]) := by
    refine hbelowLexes.free ?_
    rw [startsBlock_dropGap, startsBlock_append, hbelow]
  have heq : kinds ++ (oldKinds ++ (belowKinds ++ [.streamEnd])) = (spelling ++ gaps) ++ tail := by
    rw [List.append_assoc, ← hkinds]
    simp
  -- The items at the place, and those of the old lines among them.
  obtain ⟨context, inside, rest', others, hcontext, hrest', hinside, hothers, rfl, hreplace⟩ :=
    hopens.context hbody (allKeyed_of_parse hparse) htail (holdSpelled.free_append hfree) heq
  obtain ⟨later, olds', others, rfl, hlater, rfl, holds', hothers⟩ :=
    holdSpelled.peel hothers hrest' hfree hinside
  obtain rfl := holdSpelled.unique hkeyed holds'
  refine ⟨context, others, hcontext, rfl, ?_⟩
  intro new news hnew hkeyed'
  obtain ⟨newKinds, hnewSpans, hnewSpelled⟩ := hnew (below ++ [endMark])
  obtain ⟨body', hbody', heq'⟩ := hreplace (hnewSpelled.append hothers)
  have hnewLexes := (hlexes.append hline (new ++ (below ++ [endMark]))).trans
    (Lexes.trans hnewSpans hbelowLexes)
  refine (parse_of_lexes (by simpa using hnewLexes) hbody' htail.closesItems ?_).1 hkeyed'
  rw [← heq', List.append_assoc newKinds, ← hlater]
  simp

end LookmlProject.Lookml
