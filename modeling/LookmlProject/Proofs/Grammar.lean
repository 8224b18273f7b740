import LookmlProject.Lookml.Parser

/-!
# The grammar of LookML

The parser is a family of readers that try one thing after another.  Here the texts that it accepts
are described without any trying, by a relation `Spelled kinds items`: kinds of tokens spell a
sequence of items.  A derivation speaks about its own tokens only, so two of them can be put one
after the other (`Spelled.append`), which no statement about a run of the parser allows.

The relation says nothing about keys that a block holds twice.  The parser refuses those blocks, and
`Item.keyed` says which items have none.
-/

namespace LookmlProject.Lookml

/-- The kinds of tokens. -/
def kindsOf (ts : List Token) : List Kind := ts.map Token.kind

/-- Kinds without the white space and the comments in front. -/
def skipKinds (kinds : List Kind) : List Kind := kinds.dropWhile Kind.isTrivia

/-- White space and comments only. -/
def Spacing (kinds : List Kind) : Prop := ∀ kind ∈ kinds, kind.isTrivia = true

/-- Skipping tokens is skipping their kinds. -/
theorem kindsOf_skip (ts : List Token) : kindsOf (Reader.skip ts) = skipKinds (kindsOf ts) := by
  rw [kindsOf, kindsOf, Reader.skip, skipKinds, List.dropWhile_map]
  rfl

/-- White space in front is skipped as a whole. -/
theorem skipKinds_spacing {gaps : List Kind} (h : Spacing gaps) (kinds : List Kind) :
    skipKinds (gaps ++ kinds) = skipKinds kinds :=
  List.dropWhile_append_of_pos h

theorem skipKinds_cons {kind : Kind} (h : kind.isTrivia = false) (kinds : List Kind) :
    skipKinds (kind :: kinds) = kind :: kinds :=
  List.dropWhile_cons_of_neg (by simp [h])

theorem skipKinds_gap {kind : Kind} (h : kind.isTrivia = true) (kinds : List Kind) :
    skipKinds (kind :: kinds) = skipKinds kinds :=
  List.dropWhile_cons_of_pos h

/-- What was skipped once is not skipped again. -/
theorem skipKinds_skipKinds (kinds : List Kind) :
    skipKinds (skipKinds kinds) = skipKinds kinds := by
  induction kinds with
  | nil => rfl
  | cons kind kinds ih =>
      cases h : kind.isTrivia with
      | true => rw [skipKinds_gap h, ih]
      | false => rw [skipKinds_cons h, skipKinds_cons h]

theorem length_skipKinds_le (kinds : List Kind) : (skipKinds kinds).length ≤ kinds.length :=
  (List.dropWhile_suffix _).length_le

/-- White space after white space. -/
theorem Spacing.append {gaps gaps' : List Kind} (h : Spacing gaps) (h' : Spacing gaps') :
    Spacing (gaps ++ gaps') := by
  intro kind hkind
  rcases List.mem_append.mp hkind with hmem | hmem
  · exact h kind hmem
  · exact h' kind hmem

/-- Skipping takes white space and comments away. -/
theorem exists_spacing (ts : List Token) :
    ∃ gaps, Spacing gaps ∧ kindsOf ts = gaps ++ kindsOf (Reader.skip ts) := by
  refine ⟨(kindsOf ts).takeWhile Kind.isTrivia, List.all_eq_true.mp List.all_takeWhile, ?_⟩
  rw [kindsOf_skip, skipKinds, List.takeWhile_append_dropWhile]

/-! ## The grammar -/

/-- The tokens of a key with its colon. -/
inductive KeyOf : List Kind → String → Prop
  | mk {text : List Char} {before after : List Kind} : Spacing before → Spacing after →
      KeyOf (.literal text :: (before ++ .colon :: after)) (String.ofList text)

/-- The tokens of a value. -/
inductive ValueOf : List Kind → String → Prop
  | literal (text : List Char) : ValueOf [.literal text] (String.ofList text)
  | quoted (text : List Char) : ValueOf [.quoted text] (String.ofList text)
  | expression (text : List Char) :
      ValueOf [.expression text, .expressionEnd] (String.ofList (Text.strip text))

/-- The tokens of a plain element of a list. -/
inductive PlainElement : List Kind → String → Prop
  | mk {kind : Kind} {before after : List Kind} {text : String} : Spacing before →
      Reader.isListValue kind = true → ValueOf [kind] text → Spacing after →
      PlainElement (before ++ kind :: after) text

/-- The tokens of an element of a list that is a parameter. -/
inductive PairElement : List Kind → String × String → Prop
  | mk {before front middle : List Kind} {key text : String} : Spacing before → KeyOf front key →
      ValueOf middle text → PairElement (before ++ (front ++ middle)) (key, text)

/-- The tokens of further elements of a list, each after a comma; a comma may stand at the end. -/
inductive MoreElements {α : Type} (element : List Kind → α → Prop) : List Kind → List α → Prop
  | nil : MoreElements element [] []
  | comma : MoreElements element [.comma] []
  | cons {first kinds : List Kind} {a : α} {as : List α} : element first a →
      MoreElements element kinds as → MoreElements element (.comma :: (first ++ kinds)) (a :: as)

/-- A comma may stand before the first element of a list. -/
inductive Lead : List Kind → Prop
  | none : Lead []
  | comma {before : List Kind} : Spacing before → Lead (before ++ [.comma])

/-- The tokens between the brackets of a list. -/
inductive ListOf (key : String) : List Kind → Item → Prop
  | none {gaps : List Kind} : Spacing gaps → ListOf key gaps (.values key [])
  | values {lead first more gaps : List Kind} {text : String} {texts : List String} : Lead lead →
      PlainElement first text → MoreElements PlainElement more texts → Spacing gaps →
      ListOf key (lead ++ (first ++ (more ++ gaps))) (.values key (text :: texts))
  | pairs {lead first more gaps : List Kind} {p : String × String} {ps : List (String × String)} :
      Lead lead → PairElement first p → MoreElements PairElement more ps → Spacing gaps →
      ListOf key (lead ++ (first ++ (more ++ gaps))) (.pairs key (p :: ps))

/-- The token of the title that a block may have. -/
def titleKinds (title : Option (List Char)) : List Kind := (title.map Kind.literal).toList

/-- Kinds of tokens spell a sequence of items. -/
inductive Spelled : List Kind → List Item → Prop
  | nil : Spelled [] []
  | spacing {kind : Kind} {kinds : List Kind} {items : List Item} : kind.isTrivia = true →
      Spelled kinds items → Spelled (kind :: kinds) items
  | pair {front middle kinds : List Kind} {key text : String} {items : List Item} :
      KeyOf front key → ValueOf middle text → Spelled kinds items →
      Spelled (front ++ (middle ++ kinds)) (.pair key text :: items)
  | list {front middle kinds : List Kind} {key : String} {item : Item} {items : List Item} :
      KeyOf front key → ListOf key middle item → Spelled kinds items →
      Spelled (front ++ .bracketOpen :: (middle ++ .bracketClose :: kinds)) (item :: items)
  | block {front gaps body kinds : List Kind} {key : String} {inner items : List Item}
      (title : Option (List Char)) : KeyOf front key → Spacing gaps → Spelled body inner →
      Spelled kinds items →
      Spelled (front ++ (titleKinds title ++ (gaps ++ .braceOpen ::
        (body ++ .braceClose :: kinds)))) (.block key (title.map String.ofList) inner :: items)

mutual

/-- In no block of an item a key that is not plural stands twice. -/
def Item.keyed : Item → Bool
  | .block _ _ body => (repeatedKey? (body.map Item.key)).isNone && Item.allKeyed body
  | _ => true

/-- In no block of some items a key that is not plural stands twice. -/
def Item.allKeyed : List Item → Bool
  | [] => true
  | item :: rest => item.keyed && Item.allKeyed rest

end

/-- One spelling after another. -/
theorem Spelled.append {kinds kinds' : List Kind} {items items' : List Item}
    (h : Spelled kinds items) (h' : Spelled kinds' items') :
    Spelled (kinds ++ kinds') (items ++ items') := by
  induction h with
  | nil => exact h'
  | spacing hgap _ ih => exact .spacing hgap ih
  | pair hkey hvalue _ ih => simpa using Spelled.pair hkey hvalue ih
  | list hkey hlist _ ih => simpa using Spelled.list hkey hlist ih
  | block title hkey hgaps hbody _ _ ih => simpa using Spelled.block title hkey hgaps hbody ih

/-- White space alone spells no item. -/
theorem Spelled.of_spacing {gaps : List Kind} (h : Spacing gaps) : Spelled gaps [] := by
  induction gaps with
  | nil => exact .nil
  | cons kind gaps ih =>
      have hkind : kind.isTrivia = true := h kind List.mem_cons_self
      exact .spacing hkind (ih fun k hk => h k (List.mem_cons_of_mem _ hk))

/-- White space may stand in front of a spelling. -/
theorem Spelled.spacing_append {gaps kinds : List Kind} {items : List Item}
    (hgaps : Spacing gaps) (h : Spelled kinds items) : Spelled (gaps ++ kinds) items := by
  simpa using (Spelled.of_spacing hgaps).append h

/-- White space in front of a spelling can be left out. -/
theorem Spelled.of_gap_cons {kind : Kind} {kinds : List Kind} {items : List Item}
    (hkind : kind.isTrivia = true) (h : Spelled (kind :: kinds) items) : Spelled kinds items := by
  -- The kinds are made a variable, so that the cases of a spelling can be told apart.
  generalize hall : kind :: kinds = all at h
  cases h with
  | nil => cases hall
  | spacing _ h' => cases hall; exact h'
  | pair hkey _ _ => cases hkey; cases hall; cases hkind
  | list hkey _ _ => cases hkey; cases hall; cases hkind
  | block _ hkey _ _ _ => cases hkey; cases hall; cases hkind

/-- A key starts with a literal. -/
theorem KeyOf.eq_literal_cons {front : List Kind} {name : String} (h : KeyOf front name) :
    ∃ text more, front = .literal text :: more := by
  cases h with
  | mk => exact ⟨_, _, rfl⟩

/-- Nothing is skipped in front of a key. -/
theorem KeyOf.skipKinds_append {front : List Kind} {name : String} (h : KeyOf front name)
    (kinds : List Kind) : skipKinds (front ++ kinds) = front ++ kinds := by
  obtain ⟨text, more, rfl⟩ := h.eq_literal_cons
  exact skipKinds_cons rfl _

/-- White space behind a key belongs to it. -/
theorem KeyOf.append_spacing {front gaps : List Kind} {name : String} (h : KeyOf front name)
    (hgaps : Spacing gaps) : KeyOf (front ++ gaps) name := by
  obtain ⟨hbefore, hafter⟩ := h
  simpa using KeyOf.mk hbefore (hafter.append hgaps)

/-- A value starts with a token that is neither white space nor a comment. -/
theorem ValueOf.skipKinds_append {middle : List Kind} {text : String} (h : ValueOf middle text)
    (kinds : List Kind) : skipKinds (middle ++ kinds) = middle ++ kinds := by
  cases h with
  | literal => exact skipKinds_cons rfl _
  | quoted => exact skipKinds_cons rfl _
  | expression => exact skipKinds_cons rfl _

/-- A parameter in a list is its key and its value, once the white space in front is skipped. -/
theorem PairElement.skipKinds_append {kinds : List Kind} {p : String × String}
    (h : PairElement kinds p) (tail : List Kind) :
    ∃ front middle, KeyOf front p.1 ∧ ValueOf middle p.2 ∧
      skipKinds (kinds ++ tail) = front ++ (middle ++ tail) := by
  obtain ⟨hbefore, hkey, hvalue⟩ := h
  refine ⟨_, _, hkey, hvalue, ?_⟩
  rw [List.append_assoc, skipKinds_spacing hbefore, List.append_assoc, hkey.skipKinds_append]

/-- A plain element is one token and white space, once the white space in front is skipped. -/
theorem PlainElement.skipKinds_append {kinds : List Kind} {text : String}
    (h : PlainElement kinds text) (tail : List Kind) :
    ∃ kind after, Reader.isListValue kind = true ∧ ValueOf [kind] text ∧ Spacing after ∧
      skipKinds (kinds ++ tail) = kind :: (after ++ tail) := by
  obtain ⟨hbefore, hkind, hvalue, hafter⟩ := h
  refine ⟨_, _, hkind, hvalue, hafter, ?_⟩
  rw [List.append_assoc, skipKinds_spacing hbefore, List.cons_append]
  exact hvalue.skipKinds_append _

/-- White space may stand in front of a parameter in a list. -/
theorem PairElement.spacing_append {gaps kinds : List Kind} {p : String × String}
    (hgaps : Spacing gaps) (h : PairElement kinds p) : PairElement (gaps ++ kinds) p := by
  obtain ⟨hbefore, hkey, hvalue⟩ := h
  simpa using PairElement.mk (hgaps.append hbefore) hkey hvalue

theorem PlainElement.spacing_append {gaps kinds : List Kind} {text : String}
    (hgaps : Spacing gaps) (h : PlainElement kinds text) : PlainElement (gaps ++ kinds) text := by
  obtain ⟨hbefore, hkind, hvalue, hafter⟩ := h
  simpa using PlainElement.mk (hgaps.append hbefore) hkind hvalue hafter

/-- The kinds go on, after white space, with the bracket that closes a list. -/
def ClosesList (kinds : List Kind) : Prop := ∃ more, skipKinds kinds = .bracketClose :: more

/-- Further elements go on with a comma or with the end of the list. -/
theorem MoreElements.next {α : Type} {element : List Kind → α → Prop} {kinds tail : List Kind}
    {as : List α} (h : MoreElements element kinds as) (htail : ClosesList tail) :
    ∃ kind more, skipKinds (kinds ++ tail) = kind :: more ∧ kind ≠ .colon := by
  cases h with
  | nil =>
      obtain ⟨more, hmore⟩ := htail
      exact ⟨_, more, hmore, by decide⟩
  | comma => exact ⟨.comma, tail, skipKinds_cons rfl tail, by decide⟩
  | cons => exact ⟨.comma, _, skipKinds_cons rfl _, by decide⟩

/-- Skipping before further elements takes at most white space at the end of the list. -/
theorem MoreElements.skipKinds_append {α : Type} {element : List Kind → α → Prop}
    {kinds tail : List Kind} {as : List α} (h : MoreElements element kinds as)
    (htail : ClosesList tail) :
    ∃ tail', skipKinds (kinds ++ tail) = kinds ++ tail' ∧ ClosesList tail' ∧
      skipKinds tail' = skipKinds tail := by
  cases h with
  | nil =>
      have hskip := skipKinds_skipKinds tail
      exact ⟨skipKinds tail, rfl, by rwa [ClosesList, hskip], hskip⟩
  | comma => exact ⟨tail, skipKinds_cons rfl tail, htail, rfl⟩
  | cons => exact ⟨tail, skipKinds_cons rfl _, htail, rfl⟩

end LookmlProject.Lookml
