import LookmlProject.Proofs.Parts
import Mathlib.Data.List.Basic

/-!
# Places between the items of a document

A place in a document is told by the text above it.  Where that text leaves some blocks open and
ends behind an item, whole items can be put in, and they become items of the innermost of these
blocks.  Nothing is assumed about the rest of the document but that it is read.

  * The brace that closes a block is found by counting (`splitClose`), so an item ends at one place
    only (`ItemOf.unique`), and items at the start of a spelling are its first items
    (`Spelled.peel`).
  * Kinds that leave blocks open (`Opens`) split the items of a document into those around the place
    and those at the place (`Opens.context`).
  * A text that leaves blocks open is told by the items that it has when they are closed
    (`opens_of_closed`).
-/

namespace LookmlProject.Lookml

/-! ## Braces and brackets -/

/-- Braces and brackets. -/
def Kind.isBracket : Kind → Bool
  | .braceOpen | .braceClose | .bracketOpen | .bracketClose => true
  | _ => false

/-- Neither braces nor brackets. -/
def Flat (kinds : List Kind) : Prop := ∀ kind ∈ kinds, kind.isBracket = false

theorem Flat.nil : Flat [] := fun _ h => nomatch h

theorem Flat.cons {kind : Kind} {kinds : List Kind} (hkind : kind.isBracket = false)
    (h : Flat kinds) : Flat (kind :: kinds) :=
  List.forall_mem_cons.mpr ⟨hkind, h⟩

theorem Flat.append {kinds kinds' : List Kind} (h : Flat kinds) (h' : Flat kinds') :
    Flat (kinds ++ kinds') :=
  List.forall_mem_append.mpr ⟨h, h'⟩

/-- White space and comments have neither braces nor brackets. -/
theorem Spacing.flat {gaps : List Kind} (h : Spacing gaps) : Flat gaps := by
  intro kind hkind
  have htrivia := h kind hkind
  cases kind with
  | gap => rfl
  | comment => rfl
  | _ => cases htrivia

/-- A key has neither braces nor brackets. -/
theorem KeyOf.flat {front : List Kind} {key : String} (h : KeyOf front key) : Flat front := by
  cases h with
  | mk hbefore hafter => exact .cons rfl (hbefore.flat.append (.cons rfl hafter.flat))

/-- A value has neither braces nor brackets: those in a text are part of its token. -/
theorem ValueOf.flat {middle : List Kind} {text : String} (h : ValueOf middle text) :
    Flat middle := by
  cases h with
  | literal => exact .cons rfl .nil
  | quoted => exact .cons rfl .nil
  | expression => exact .cons rfl (.cons rfl .nil)

theorem PlainElement.flat {kinds : List Kind} {text : String} (h : PlainElement kinds text) :
    Flat kinds := by
  cases h with
  | mk hbefore _ hvalue hafter => exact hbefore.flat.append (hvalue.flat.append hafter.flat)

theorem PairElement.flat {kinds : List Kind} {p : String × String} (h : PairElement kinds p) :
    Flat kinds := by
  cases h with
  | mk hbefore hkey hvalue => exact hbefore.flat.append (hkey.flat.append hvalue.flat)

/-- Elements have none if each of them has none. -/
theorem MoreElements.flat {α : Type} {element : List Kind → α → Prop}
    (helement : ∀ {kinds a}, element kinds a → Flat kinds) {kinds : List Kind} {as : List α}
    (h : MoreElements element kinds as) : Flat kinds := by
  induction h with
  | nil => exact .nil
  | comma => exact .cons rfl .nil
  | cons hfirst _ ih => exact .cons rfl ((helement hfirst).append ih)

theorem Lead.flat {lead : List Kind} (h : Lead lead) : Flat lead := by
  cases h with
  | none => exact .nil
  | comma hbefore => exact hbefore.flat.append (.cons rfl .nil)

/-- Between the brackets of a list there are neither braces nor brackets. -/
theorem ListOf.flat {key : String} {middle : List Kind} {item : Item}
    (h : ListOf key middle item) : Flat middle := by
  cases h with
  | none hgaps => exact hgaps.flat
  | values hlead hfirst hmore hgaps =>
      have hrest := (hmore.flat PlainElement.flat).append hgaps.flat
      exact hlead.flat.append (hfirst.flat.append hrest)
  | pairs hlead hfirst hmore hgaps =>
      have hrest := (hmore.flat PairElement.flat).append hgaps.flat
      exact hlead.flat.append (hfirst.flat.append hrest)

/-- What stands in front of the brace that closes a block, and what behind it, if so many blocks are
open inside. -/
def splitClose : Nat → List Kind → Option (List Kind × List Kind)
  | _, [] => none
  | depth, .braceOpen :: rest =>
    (splitClose (depth + 1) rest).map fun s => (.braceOpen :: s.1, s.2)
  | 0, .braceClose :: rest => some ([], rest)
  | depth + 1, .braceClose :: rest =>
    (splitClose depth rest).map fun s => (.braceClose :: s.1, s.2)
  | depth, kind :: rest => (splitClose depth rest).map fun s => (kind :: s.1, s.2)

/-- Kinds with as many closing as opening braces, none of which closes a block from outside. -/
def Neutral (kinds : List Kind) : Prop :=
  ∀ depth rest, splitClose depth (kinds ++ rest) =
    (splitClose depth rest).map fun s => (kinds ++ s.1, s.2)

theorem Neutral.nil : Neutral [] := by
  intro depth rest
  simp

/-- Neutral kinds in a row are neutral. -/
theorem Neutral.append {kinds kinds' : List Kind} (h : Neutral kinds) (h' : Neutral kinds') :
    Neutral (kinds ++ kinds') := by
  intro depth rest
  rw [List.append_assoc, h, h', Option.map_map]
  simp [Function.comp_def]

/-- A kind that is no brace may stand in front of neutral kinds. -/
theorem Neutral.cons {kind : Kind} {kinds : List Kind} (hopen : kind ≠ .braceOpen)
    (hclose : kind ≠ .braceClose) (h : Neutral kinds) : Neutral (kind :: kinds) := by
  intro depth rest
  have hstep : splitClose depth (kind :: (kinds ++ rest)) =
      (splitClose depth (kinds ++ rest)).map fun s => (kind :: s.1, s.2) := by
    cases kind with
    | braceOpen => exact absurd rfl hopen
    | braceClose => exact absurd rfl hclose
    | _ => cases depth <;> rfl
  rw [List.cons_append, hstep, h, Option.map_map]
  rfl

/-- Kinds without braces are neutral. -/
theorem Flat.neutral {kinds : List Kind} (h : Flat kinds) : Neutral kinds := by
  induction kinds with
  | nil => exact .nil
  | cons kind kinds ih =>
      obtain ⟨hkind, hkinds⟩ := List.forall_mem_cons.mp h
      refine .cons ?_ ?_ (ih hkinds)
      · rintro rfl
        cases hkind
      · rintro rfl
        cases hkind

/-- Neutral kinds in braces are neutral. -/
theorem Neutral.block {body : List Kind} (h : Neutral body) :
    Neutral (.braceOpen :: (body ++ [.braceClose])) := by
  intro depth rest
  have hopen : splitClose depth (.braceOpen :: (body ++ .braceClose :: rest)) =
      (splitClose (depth + 1) (body ++ .braceClose :: rest)).map
        fun s => (.braceOpen :: s.1, s.2) := by
    cases depth <;> rfl
  have hclose : splitClose (depth + 1) (.braceClose :: rest) =
      (splitClose depth rest).map fun s => (.braceClose :: s.1, s.2) := rfl
  rw [List.cons_append, List.append_assoc, List.singleton_append, hopen, h, hclose,
    Option.map_map, Option.map_map]
  simp [Function.comp_def]

/-- A block is closed at one place. -/
theorem Neutral.unique {body body' rest rest' : List Kind} (h : Neutral body) (h' : Neutral body')
    (heq : body ++ .braceClose :: rest = body' ++ .braceClose :: rest') :
    body = body' ∧ rest = rest' := by
  have hsplit : splitClose 0 (body ++ .braceClose :: rest) = some (body, rest) := by
    rw [h]
    simp [splitClose]
  have hsplit' : splitClose 0 (body' ++ .braceClose :: rest') = some (body', rest') := by
    rw [h']
    simp [splitClose]
  rw [heq, hsplit'] at hsplit
  cases hsplit
  exact ⟨rfl, rfl⟩

/-- The first kind of some sort is at one place. -/
theorem split_unique (sort : Kind → Bool) {first : List Kind} :
    ∀ {second rest rest' : List Kind} {kind kind' : Kind}, (∀ k ∈ first, sort k = false) →
      (∀ k ∈ second, sort k = false) → sort kind = true → sort kind' = true →
      first ++ kind :: rest = second ++ kind' :: rest' →
      first = second ∧ kind = kind' ∧ rest = rest' := by
  -- By induction on the first list: where one list ends in front of the other, its next kind would
  -- be of the sort and not of the sort.
  induction first with
  | nil =>
      intro second rest rest' kind kind' _ hsecond hkind _ heq
      cases second with
      | nil => cases heq; exact ⟨rfl, rfl, rfl⟩
      | cons k second =>
          cases heq
          rw [hsecond kind List.mem_cons_self] at hkind
          cases hkind
  | cons k first ih =>
      intro second rest rest' kind kind' hfirst hsecond hkind hkind' heq
      cases second with
      | nil =>
          obtain ⟨rfl, _⟩ := List.cons.inj heq
          rw [hfirst k List.mem_cons_self] at hkind'
          cases hkind'
      | cons k' second =>
          obtain ⟨rfl, htail⟩ := List.cons.inj heq
          obtain ⟨rfl, hsame⟩ := ih (fun k hk => hfirst k (List.mem_cons_of_mem _ hk))
            (fun k hk => hsecond k (List.mem_cons_of_mem _ hk)) hkind hkind' htail
          exact ⟨rfl, hsame⟩

/-- White space and comments end at one place. -/
theorem Spacing.unique {gaps gaps' rest rest' : List Kind} {kind kind' : Kind} (h : Spacing gaps)
    (h' : Spacing gaps') (hkind : kind.isTrivia = false) (hkind' : kind'.isTrivia = false)
    (heq : gaps ++ kind :: rest = gaps' ++ kind' :: rest') :
    gaps = gaps' ∧ kind = kind' ∧ rest = rest' := by
  refine split_unique (fun k => !k.isTrivia) ?_ ?_ (by simp [hkind]) (by simp [hkind']) heq
  · intro k hk
    simp [h k hk]
  · intro k hk
    simp [h' k hk]

/-- The bracket that closes a list is at one place. -/
theorem Flat.unique {middle middle' rest rest' : List Kind} (h : Flat middle) (h' : Flat middle')
    (heq : middle ++ .bracketClose :: rest = middle' ++ .bracketClose :: rest') :
    middle = middle' ∧ rest = rest' := by
  obtain ⟨hmiddle, _, hrest⟩ := split_unique Kind.isBracket h h' rfl rfl heq
  exact ⟨hmiddle, hrest⟩

/-! ## Items one by one -/

/-- The tokens of an item behind its key. -/
inductive RestOf (key : String) : List Kind → Item → Prop
  | value {middle : List Kind} {text : String} : ValueOf middle text →
      RestOf key middle (.pair key text)
  | list {middle : List Kind} {item : Item} : ListOf key middle item →
      RestOf key (.bracketOpen :: (middle ++ [.bracketClose])) item
  | bare {body : List Kind} {inner : List Item} : Spelled body inner →
      RestOf key (.braceOpen :: (body ++ [.braceClose])) (.block key none inner)
  | titled {gaps body : List Kind} {inner : List Item} (title : List Char) : Spacing gaps →
      Spelled body inner →
      RestOf key (.literal title :: (gaps ++ .braceOpen :: (body ++ [.braceClose])))
        (.block key (some (String.ofList title)) inner)

/-- The tokens of an item. -/
inductive ItemOf : List Kind → Item → Prop
  | mk {front rest : List Kind} {key : String} {item : Item} : KeyOf front key →
      RestOf key rest item → ItemOf (front ++ rest) item

/-- An item in front of a spelling makes a spelling. -/
theorem ItemOf.cons {first rest : List Kind} {item : Item} {items : List Item}
    (h : ItemOf first item) (hrest : Spelled rest items) :
    Spelled (first ++ rest) (item :: items) := by
  obtain ⟨hkey, hitem⟩ := h
  cases hitem with
  | value hvalue =>
      rw [List.append_assoc]
      exact .pair hkey hvalue hrest
  | list hlist => simpa using Spelled.list hkey hlist hrest
  | bare hbody =>
      have hnone : Spacing [] := by simp [Spacing]
      simpa [titleKinds] using Spelled.block none hkey hnone hbody hrest
  | titled title hgaps hbody =>
      simpa [titleKinds] using Spelled.block (some title) hkey hgaps hbody hrest

/-- A spelling goes from item to item. -/
@[elab_as_elim]
theorem Spelled.itemwise
    {motive : (kinds : List Kind) → (items : List Item) → Spelled kinds items → Prop}
    (nil : motive [] [] .nil)
    (spacing : ∀ (kind : Kind) (kinds : List Kind) (items : List Item) (hgap : kind.isTrivia = true)
      (h : Spelled kinds items), motive kinds items h →
        motive (kind :: kinds) items (.spacing hgap h))
    (item : ∀ (first rest : List Kind) (item : Item) (items : List Item) (hitem : ItemOf first item)
      (h : Spelled rest items), motive rest items h →
        motive (first ++ rest) (item :: items) (hitem.cons h))
    {kinds : List Kind} {items : List Item} (h : Spelled kinds items) : motive kinds items h := by
  have hitem : ∀ {first rest kinds : List Kind} {item' : Item} {items : List Item},
      ItemOf first item' → (h : Spelled rest items) → motive rest items h →
      kinds = first ++ rest → ∀ h : Spelled kinds (item' :: items), motive kinds _ h := by
    rintro first rest kinds item' items hfirst hrest ih rfl h
    exact item _ _ _ _ hfirst hrest ih
  induction h with
  | nil => exact nil
  | spacing hgap hrest ih => exact spacing _ _ _ hgap hrest ih
  | pair hkey hvalue hrest ih =>
      exact hitem (.mk hkey (.value hvalue)) hrest ih (List.append_assoc ..).symm _
  | list hkey hlist hrest ih =>
      exact hitem (.mk hkey (.list hlist)) hrest ih (by simp) _
  | block title hkey hgaps hbody hrest _ ih =>
      cases title with
      | none =>
          -- Without a title the white space belongs to the key.
          exact hitem (.mk (hkey.append_spacing hgaps) (.bare hbody)) hrest ih
            (by simp [titleKinds]) _
      | some title =>
          exact hitem (.mk hkey (.titled title hgaps hbody)) hrest ih (by simp [titleKinds]) _

/-- An item starts with a literal. -/
theorem ItemOf.eq_literal_cons {first : List Kind} {item : Item} (h : ItemOf first item) :
    ∃ text more, first = .literal text :: more := by
  obtain ⟨hkey, _⟩ := h
  obtain ⟨text, more, rfl⟩ := hkey.eq_literal_cons
  exact ⟨text, _, rfl⟩

/-- Kinds that do not go on with an opening brace. -/
def Free (kinds : List Kind) : Prop := ∀ more, skipKinds kinds ≠ .braceOpen :: more

theorem free_literal (text : List Char) (kinds : List Kind) : Free (.literal text :: kinds) := by
  intro more h
  rw [skipKinds_cons rfl] at h
  cases h

/-- Items do not make an opening brace come next. -/
theorem Spelled.free_append {kinds rest : List Kind} {items : List Item} (h : Spelled kinds items)
    (hrest : Free rest) : Free (kinds ++ rest) := by
  induction h using Spelled.itemwise with
  | nil => exact hrest
  | spacing kind kinds items hgap _ ih =>
      intro more hmore
      rw [List.cons_append, skipKinds_gap hgap] at hmore
      exact ih more hmore
  | item first others item items hitem _ _ =>
      obtain ⟨text, more, rfl⟩ := hitem.eq_literal_cons
      exact free_literal _ _

/-- Kinds that go on with a closing brace or the end of the stream. -/
def Stops (kinds : List Kind) : Prop :=
  ∃ kind more, kinds = kind :: more ∧ Reader.endsItems kind = true

theorem stops_braceClose (kinds : List Kind) : Stops (.braceClose :: kinds) :=
  ⟨_, kinds, rfl, rfl⟩

theorem Stops.free {kinds : List Kind} (h : Stops kinds) : Free kinds := by
  obtain ⟨kind, more, rfl, hkind⟩ := h
  intro more' heq
  cases kind <;> cases hkind <;> cases heq

/-- Behind a key stands a token that is no white space. -/
theorem RestOf.eq_cons {key : String} {rest : List Kind} {item : Item} (h : RestOf key rest item) :
    ∃ kind more, rest = kind :: more ∧ kind.isTrivia = false := by
  cases h with
  | value hvalue =>
      cases hvalue with
      | literal => exact ⟨_, _, rfl, rfl⟩
      | quoted => exact ⟨_, _, rfl, rfl⟩
      | expression => exact ⟨_, _, rfl, rfl⟩
  | list => exact ⟨_, _, rfl, rfl⟩
  | bare => exact ⟨_, _, rfl, rfl⟩
  | titled => exact ⟨_, _, rfl, rfl⟩

/-- A key ends at one place. -/
theorem KeyOf.unique {front front' rest rest' : List Kind} {key key' : String} {kind kind' : Kind}
    (h : KeyOf front key) (h' : KeyOf front' key') (hkind : kind.isTrivia = false)
    (hkind' : kind'.isTrivia = false) (heq : front ++ kind :: rest = front' ++ kind' :: rest') :
    front = front' ∧ key = key' ∧ kind = kind' ∧ rest = rest' := by
  obtain ⟨hbefore, hafter⟩ := h
  obtain ⟨hbefore', hafter'⟩ := h'
  simp only [List.cons_append, List.append_assoc, List.cons.injEq, Kind.literal.injEq] at heq
  obtain ⟨rfl, heq⟩ := heq
  obtain ⟨rfl, _, heq⟩ := hbefore.unique hbefore' rfl rfl heq
  obtain ⟨rfl, rfl, rfl⟩ := hafter.unique hafter' hkind hkind' heq
  exact ⟨rfl, rfl, rfl, rfl⟩

/-- The braces of items are balanced. -/
theorem Spelled.neutral {kinds : List Kind} {items : List Item} (h : Spelled kinds items) :
    Neutral kinds := by
  induction h with
  | nil => exact .nil
  | spacing hgap _ ih =>
      have hflat : Flat [_] := Spacing.flat (List.forall_mem_singleton.mpr hgap)
      exact hflat.neutral.append ih
  | pair hkey hvalue _ ih => exact hkey.flat.neutral.append (hvalue.flat.neutral.append ih)
  | list hkey hlist _ ih =>
      have hclosed := Neutral.cons (by decide : Kind.bracketClose ≠ .braceOpen) (by decide) ih
      have hopened := Neutral.cons (by decide : Kind.bracketOpen ≠ .braceOpen) (by decide)
        (hlist.flat.neutral.append hclosed)
      exact hkey.flat.neutral.append hopened
  | block title hkey hgaps _ _ ihbody ih =>
      have htitle : Flat (titleKinds title) := by
        cases title with
        | none => exact .nil
        | some text => exact .cons rfl .nil
      have hall := hkey.flat.neutral.append (htitle.neutral.append
        (hgaps.flat.neutral.append (ihbody.block.append ih)))
      simpa using hall

/-! ## Items at the start of a spelling -/

/-- What stands behind a key ends at one place, if no opening brace follows it. -/
theorem RestOf.unique {key key' : String} {rest rest' more more' : List Kind} {item item' : Item}
    (h : RestOf key rest item) (h' : RestOf key' rest' item') (hmore : Free more)
    (hmore' : Free more') (heq : rest ++ more = rest' ++ more') : rest = rest' ∧ more = more' := by
  -- A literal is a title if a brace follows it, and a value if none does.
  have hvalue : ∀ {middle tail gaps others : List Kind} {text : String} {title : List Char},
      ValueOf middle text → Free tail → Spacing gaps →
      middle ++ tail ≠ .literal title :: (gaps ++ .braceOpen :: others) := by
    intro middle tail gaps others text title hvalue htail hgaps heq
    cases hvalue with
    | literal =>
        obtain ⟨_, rfl⟩ := List.cons.inj heq
        exact htail others (by rw [skipKinds_spacing hgaps, skipKinds_cons rfl])
    | quoted => cases heq
    | expression => cases heq
  cases h with
  | value hfirst =>
      cases h' with
      | value hsecond =>
          cases hfirst <;> cases hsecond <;> cases heq <;> exact ⟨rfl, rfl⟩
      | list => cases hfirst <;> cases heq
      | bare => cases hfirst <;> cases heq
      | titled title hgaps hbody =>
          rw [List.cons_append, List.append_assoc, List.cons_append] at heq
          exact absurd heq (hvalue hfirst hmore hgaps)
  | list hlist =>
      cases h' with
      | value hsecond => cases hsecond <;> cases heq
      | list hlist' =>
          simp only [List.cons_append, List.append_assoc, List.nil_append, List.cons.injEq,
            true_and] at heq
          obtain ⟨rfl, rfl⟩ := hlist.flat.unique hlist'.flat heq
          exact ⟨rfl, rfl⟩
      | bare => cases heq
      | titled => cases heq
  | bare hbody =>
      cases h' with
      | value hsecond => cases hsecond <;> cases heq
      | list => cases heq
      | bare hbody' =>
          simp only [List.cons_append, List.append_assoc, List.nil_append, List.cons.injEq,
            true_and] at heq
          obtain ⟨rfl, rfl⟩ := hbody.neutral.unique hbody'.neutral heq
          exact ⟨rfl, rfl⟩
      | titled => cases heq
  | titled title hgaps hbody =>
      cases h' with
      | value hsecond =>
          rw [List.cons_append, List.append_assoc, List.cons_append] at heq
          exact absurd heq.symm (hvalue hsecond hmore' hgaps)
      | list => cases heq
      | bare => cases heq
      | titled title' hgaps' hbody' =>
          simp only [List.cons_append, List.append_assoc, List.nil_append, List.cons.injEq,
            Kind.literal.injEq] at heq
          obtain ⟨rfl, heq⟩ := heq
          obtain ⟨rfl, _, heq⟩ := hgaps.unique hgaps' rfl rfl heq
          obtain ⟨rfl, rfl⟩ := hbody.neutral.unique hbody'.neutral heq
          exact ⟨rfl, rfl⟩

/-- **AN ITEM ENDS AT ONE PLACE**, if no opening brace follows it. -/
theorem ItemOf.unique {first first' more more' : List Kind} {item item' : Item}
    (h : ItemOf first item) (h' : ItemOf first' item') (hmore : Free more) (hmore' : Free more')
    (heq : first ++ more = first' ++ more') : first = first' ∧ more = more' := by
  obtain ⟨hkey, hrest⟩ := h
  obtain ⟨hkey', hrest'⟩ := h'
  rw [List.append_assoc, List.append_assoc] at heq
  obtain ⟨kind, tail, hcons, hkind⟩ := hrest.eq_cons
  obtain ⟨kind', tail', hcons', hkind'⟩ := hrest'.eq_cons
  have hsplit := heq
  rw [hcons, hcons'] at hsplit
  obtain ⟨rfl, _⟩ := hkey.unique hkey' hkind hkind' hsplit
  obtain ⟨rfl, rfl⟩ := hrest.unique hrest' hmore hmore' (List.append_cancel_left heq)
  exact ⟨rfl, rfl⟩

/-- A spelling that starts with a literal starts with an item. -/
theorem Spelled.uncons {kinds : List Kind} {items : List Item} (h : Spelled kinds items)
    {text : List Char} {more : List Kind} (hstart : kinds = .literal text :: more) :
    ∃ first rest item others, kinds = first ++ rest ∧ items = item :: others ∧
      ItemOf first item ∧ Spelled rest others := by
  induction h using Spelled.itemwise with
  | nil => cases hstart
  | spacing kind kinds items hgap _ _ =>
      cases hstart
      cases hgap
  | item first rest item items hitem hrest _ =>
      exact ⟨first, rest, item, items, rfl, rfl, hitem, hrest⟩

/-- In front of the end of a block, kinds that go on with a literal are kinds of its items. -/
theorem eq_literal_cons_of_stops {kinds tail more : List Kind} {text : List Char}
    (hstops : Stops tail) (h : .literal text :: more = kinds ++ tail) :
    ∃ rest, kinds = .literal text :: rest := by
  cases kinds with
  | nil =>
      obtain ⟨kind, others, rfl, hkind⟩ := hstops
      cases h
      cases hkind
  | cons kind rest =>
      cases h
      exact ⟨rest, rfl⟩

/-- **ITEMS AT THE START** of a block are its first items: what is spelled there is spelled there in
every spelling of the block. -/
theorem Spelled.peel {front : List Kind} {items : List Item} (h : Spelled front items) :
    ∀ {body more tail : List Kind} {all : List Item}, Spelled body all → Stops tail → Free more →
      front ++ more = body ++ tail →
      ∃ rest first others, body = front ++ rest ∧ more = rest ++ tail ∧ all = first ++ others ∧
        Spelled front first ∧ Spelled rest others := by
  induction h using Spelled.itemwise with
  | nil =>
      intro body more tail all hbody _ _ heq
      exact ⟨body, [], all, rfl, heq, rfl, .nil, hbody⟩
  | spacing kind kinds items hgap _ ih =>
      intro body more tail all hbody hstops hfree heq
      cases body with
      | nil =>
          obtain ⟨stop, others, rfl, hstop⟩ := hstops
          cases heq
          cases kind <;> cases hgap <;> cases hstop
      | cons kind' body =>
          obtain ⟨rfl, htail⟩ := List.cons.inj heq
          obtain ⟨rest, first, others, rfl, hmore, hall, hfirst, hothers⟩ :=
            ih (hbody.of_gap_cons hgap) hstops hfree htail
          exact ⟨rest, first, others, rfl, hmore, hall, .spacing hgap hfirst, hothers⟩
  | item front kinds item items hitem hkinds ih =>
      intro body more tail all hbody hstops hfree heq
      obtain ⟨text, others, hcons⟩ := hitem.eq_literal_cons
      have hstart : .literal text :: (others ++ (kinds ++ more)) = body ++ tail := by
        rw [← heq, hcons]
        simp
      obtain ⟨_, hbodyStart⟩ := eq_literal_cons_of_stops hstops hstart
      obtain ⟨front', body', item', all', rfl, rfl, hitem', hbody'⟩ := hbody.uncons hbodyStart
      rw [List.append_assoc, List.append_assoc] at heq
      -- Both spellings start with an item here, and it ends at the same place in either.
      obtain ⟨rfl, htail⟩ := hitem.unique hitem' (hkinds.free_append hfree)
        (hbody'.free_append hstops.free) heq
      obtain ⟨rest, first, others, rfl, hmore, rfl, hfirst, hothers⟩ := ih hbody' hstops hfree htail
      exact ⟨rest, item' :: first, others, by rw [List.append_assoc], hmore, rfl,
        hitem'.cons hfirst, hothers⟩

/-- Kinds have one sequence of items, if in no block of it a key stands twice. -/
theorem Spelled.unique {kinds : List Kind} {items items' : List Item} (h : Spelled kinds items)
    (hkeyed : Item.allKeyed items = true) (h' : Spelled kinds items') : items' = items := by
  -- The parser finds both sequences in the same tokens, and it finds one.
  let ts := (kinds ++ [Kind.streamEnd]).map fun kind => (⟨kind, 0⟩ : Token)
  have hts : kindsOf ts = kinds ++ [.streamEnd] := by
    simp [ts, kindsOf, Function.comp_def]
  have htail : ClosesItems [.streamEnd] := ⟨.streamEnd, [], rfl, rfl⟩
  have hlength := Nat.lt_succ_of_le (length_skipKinds_le (kinds ++ [.streamEnd]))
  have hreads := h.reads htail _ _ rfl hlength
  have hreads' := h'.reads htail _ _ rfl hlength
  obtain ⟨_, hfinds, _⟩ := hreads.finds hkeyed
  obtain ⟨_, _, hfound, _⟩ := hfinds ts 0 hts
  cases hkeyed' : Item.allKeyed items' with
  | false =>
      obtain ⟨cause, hfault⟩ := hreads'.faults hkeyed' ts 0 hts
      rw [hfound] at hfault
      cases hfault
  | true =>
      obtain ⟨_, hfinds', _⟩ := hreads'.finds hkeyed'
      obtain ⟨_, _, hfound', _⟩ := hfinds' ts 0 hts
      rw [hfound] at hfound'
      cases hfound'
      rfl

/-! ## Open blocks -/

/-- Where a block is opened in a spelling, the spelling goes on with that block. -/
theorem Spelled.opened {body tail front gaps more : List Kind} {key : String} {title : List Char}
    {items : List Item} (h : Spelled body items) (hstops : Stops tail) (hkey : KeyOf front key)
    (hgaps : Spacing gaps)
    (heq : front ++ (.literal title :: (gaps ++ .braceOpen :: more)) = body ++ tail) :
    ∃ inside rest inner others,
      body = front ++ (.literal title :: (gaps ++ .braceOpen :: (inside ++ .braceClose :: rest))) ∧
      more = inside ++ .braceClose :: (rest ++ tail) ∧ Spelled inside inner ∧
      Spelled rest others ∧ items = .block key (some (String.ofList title)) inner :: others := by
  obtain ⟨text, more', hcons⟩ := hkey.eq_literal_cons
  have hstart : .literal text :: (more' ++ (.literal title :: (gaps ++ .braceOpen :: more))) =
      body ++ tail := by
    rw [← heq, hcons]
    rfl
  obtain ⟨_, hbodyStart⟩ := eq_literal_cons_of_stops hstops hstart
  obtain ⟨first, rest, item, others, rfl, rfl, hitem, hrest⟩ := h.uncons hbodyStart
  obtain ⟨hkey', hitem⟩ := hitem
  obtain ⟨kind, tail', hcons', hkind⟩ := hitem.eq_cons
  have hsplit := heq
  rw [hcons', List.append_assoc, List.append_assoc] at hsplit
  obtain ⟨rfl, rfl, _⟩ := hkey.unique hkey' rfl hkind hsplit
  rw [List.append_assoc, List.append_assoc] at heq
  have hbehind := List.append_cancel_left heq
  have hfree := hrest.free_append hstops.free
  cases hitem with
  | value hvalue =>
      cases hvalue with
      | literal =>
          -- A brace would follow the value.
          have htail : gaps ++ .braceOpen :: more = rest ++ tail := (List.cons.inj hbehind).2
          rw [← htail] at hfree
          exact absurd (by rw [skipKinds_spacing hgaps, skipKinds_cons rfl]) (hfree more)
      | quoted => cases hbehind
      | expression => cases hbehind
  | list => cases hbehind
  | bare => cases hbehind
  | titled title' hgaps' hbody =>
      simp only [List.cons_append, List.append_assoc, List.nil_append, List.cons.injEq,
        Kind.literal.injEq] at hbehind
      obtain ⟨rfl, hbehind⟩ := hbehind
      obtain ⟨rfl, _, rfl⟩ := hgaps.unique hgaps' rfl rfl hbehind
      exact ⟨_, rest, _, others, by simp, rfl, hbody, hrest, rfl⟩

/-- A block that is open: its key and title, and the items above it in the block around it. -/
structure OpenBlock where
  key : String
  title : List Char
  before : List Item

/-- Kinds that leave blocks open, the innermost first: in front of, between and behind their opening
braces stand whole items.  The last of these are items of the innermost block. -/
inductive Opens : List Kind → List OpenBlock → List Item → Prop
  | top {kinds : List Kind} {items : List Item} : Spelled kinds items → Opens kinds [] items
  | inside {outer front gaps inner : List Kind} {stack : List OpenBlock} {key : String}
      {title : List Char} {before items : List Item} : Opens outer stack before →
      KeyOf front key → Spacing gaps → Spelled inner items →
      Opens (outer ++ (front ++ (.literal title :: (gaps ++ .braceOpen :: inner))))
        (⟨key, title, before⟩ :: stack) items

/-- The items of a document around a place in nested blocks, as a function of the items of the
innermost block. -/
inductive Context : List OpenBlock → (List Item → List Item) → Prop
  | top : Context [] id
  | inside {stack : List OpenBlock} {context : List Item → List Item} (key : String)
      (title : List Char) (before after : List Item) : Context stack context →
      Context (⟨key, title, before⟩ :: stack) fun items =>
        context (before ++ .block key (some (String.ofList title)) items :: after)

/-- No key stands twice in a block of either part exactly if none does in the whole. -/
theorem allKeyed_append (items items' : List Item) :
    Item.allKeyed (items ++ items') = (Item.allKeyed items && Item.allKeyed items') := by
  induction items with
  | nil => rfl
  | cons item items ih => rw [List.cons_append, Item.allKeyed, Item.allKeyed, ih, Bool.and_assoc]

/-- What has no repeated keys around a place has none at the place. -/
theorem Context.allKeyed {stack : List OpenBlock} {context : List Item → List Item}
    (h : Context stack context) :
    ∀ {items : List Item}, Item.allKeyed (context items) = true → Item.allKeyed items = true := by
  induction h with
  | top => exact id
  | inside key title before after _ ih =>
      intro items hkeyed
      have hblock := ih hkeyed
      rw [allKeyed_append, Item.allKeyed, Item.keyed] at hblock
      simp only [Bool.and_eq_true] at hblock
      exact hblock.2.1.2

/-- **A PLACE IN A DOCUMENT**: where the kinds above leave blocks open and no opening brace follows,
the items of the document are those above and below the place in the innermost block, and those
around it.  What stands above is the same in every document, and any items can stand there in place
of those below. -/
theorem Opens.context {above : List Kind} {stack : List OpenBlock} {own : List Item}
    (h : Opens above stack own) :
    ∀ {body below tail : List Kind} {items : List Item}, Spelled body items →
      Item.allKeyed items = true → Stops tail → Free below → above ++ below = body ++ tail →
      ∃ context inside rest others, Context stack context ∧ Stops rest ∧
        below = inside ++ rest ∧ Spelled inside others ∧ items = context (own ++ others) ∧
        ∀ {kinds : List Kind} {new : List Item}, Spelled kinds new →
          ∃ body', Spelled body' (context (own ++ new)) ∧
            above ++ (kinds ++ rest) = body' ++ tail := by
  -- By induction on the open blocks, from the outermost in: the items around the block that is
  -- opened last are a context already, and it is filled with that block.
  induction h with
  | top hkinds =>
      intro body below tail items hbody hkeyed hstops hfree heq
      obtain ⟨inside, first, others, rfl, hbelow, rfl, hfirst, hothers⟩ :=
        hkinds.peel hbody hstops hfree heq
      rw [allKeyed_append, Bool.and_eq_true] at hkeyed
      obtain rfl := hfirst.unique hkeyed.1 hkinds
      refine ⟨id, inside, tail, others, .top, hstops, hbelow, hothers, rfl, ?_⟩
      intro kinds new hnew
      exact ⟨_, hfirst.append hnew, by rw [List.append_assoc]⟩
  | @inside outer front gaps inner stack key title before _ _ hkey hgaps hinner ih =>
      intro body below tail items hbody hkeyed hstops hfree heq
      have hassoc : ∀ more : List Kind,
          outer ++ (front ++ (.literal title :: (gaps ++ .braceOpen :: inner))) ++ more =
            outer ++ (front ++ (.literal title :: (gaps ++ .braceOpen :: (inner ++ more)))) := by
        intro more
        simp
      have hfree' : ∀ more : List Kind,
          Free (front ++ (.literal title :: (gaps ++ .braceOpen :: more))) := by
        intro more
        obtain ⟨text, others, rfl⟩ := hkey.eq_literal_cons
        exact free_literal _ _
      rw [hassoc] at heq
      -- The place in the outer block, the block that is opened there, and the place in that block.
      obtain ⟨context, place, rest, others, hcontext, hrest, hplace, hothers, rfl, hnew⟩ :=
        ih hbody hkeyed hstops (hfree' _) heq
      obtain ⟨inside, later, items', laterItems, rfl, hmore, hinside, hlater, rfl⟩ :=
        hothers.opened hrest hkey hgaps hplace
      obtain ⟨inside', first, others', rfl, hbelow, rfl, hfirst, hothers'⟩ :=
        hinner.peel hinside (stops_braceClose (later ++ rest)) hfree hmore
      have hplaced := Context.inside key title before laterItems hcontext
      have hkeyed' := hplaced.allKeyed hkeyed
      rw [allKeyed_append, Bool.and_eq_true] at hkeyed'
      obtain rfl := hfirst.unique hkeyed'.1 hinner
      refine ⟨_, inside', _, others', hplaced, stops_braceClose (later ++ rest), hbelow, hothers',
        rfl, ?_⟩
      intro kinds new hkinds
      have hblock := Spelled.block (some title) hkey hgaps (hfirst.append hkinds) hlater
      obtain ⟨body', hbody', heq'⟩ := hnew hblock
      refine ⟨body', hbody', ?_⟩
      rw [hassoc, ← heq']
      simp [titleKinds]

/-! ## Open blocks that are closed -/

/-- A spelling can be cut between two items. -/
theorem Spelled.split_append {kinds : List Kind} {all : List Item} (h : Spelled kinds all) :
    ∀ {first second : List Item}, all = first ++ second →
      ∃ front rest, kinds = front ++ rest ∧ Spelled front first ∧ Spelled rest second := by
  induction h using Spelled.itemwise with
  | nil =>
      intro first second hall
      obtain ⟨rfl, rfl⟩ := List.append_eq_nil_iff.mp hall.symm
      exact ⟨[], [], rfl, .nil, .nil⟩
  | spacing kind kinds items hgap _ ih =>
      intro first second hall
      obtain ⟨front, rest, rfl, hfront, hrest⟩ := ih hall
      exact ⟨kind :: front, rest, rfl, .spacing hgap hfront, hrest⟩
  | item start kinds item items hitem hkinds ih =>
      intro first second hall
      cases first with
      | nil =>
          rw [List.nil_append] at hall
          exact ⟨[], _, rfl, .nil, hall ▸ hitem.cons hkinds⟩
      | cons item' first =>
          obtain ⟨rfl, htail⟩ := List.cons.inj hall
          obtain ⟨front, rest, rfl, hfront, hrest⟩ := ih htail
          exact ⟨start ++ front, rest, by rw [List.append_assoc], hitem.cons hfront, hrest⟩

/-- What spells no items is white space. -/
theorem Spelled.spacing_of_nil {kinds : List Kind} {items : List Item} (h : Spelled kinds items)
    (hnil : items = []) : Spacing kinds := by
  induction h using Spelled.itemwise with
  | nil => exact fun _ hkind => nomatch hkind
  | spacing kind kinds items hgap _ ih => exact List.forall_mem_cons.mpr ⟨hgap, ih hnil⟩
  | item => cases hnil

/-- A block with white space around it. -/
theorem Spelled.block_inv {kinds : List Kind} {items : List Item} (h : Spelled kinds items)
    {key title : String} {inner : List Item} (hitems : items = [.block key (some title) inner]) :
    ∃ before front gaps inside after, Spacing before ∧ KeyOf front key ∧ Spacing gaps ∧
      Spelled inside inner ∧ Spacing after ∧
      kinds = before ++ (front ++ (.literal title.toList :: (gaps ++ .braceOpen ::
        (inside ++ .braceClose :: after)))) := by
  induction h using Spelled.itemwise with
  | nil => cases hitems
  | spacing kind kinds items hgap _ ih =>
      obtain ⟨before, front, gaps, inside, after, hbefore, hrest⟩ := ih hitems
      obtain ⟨hkey, hgaps, hinside, hafter, rfl⟩ := hrest
      exact ⟨kind :: before, front, gaps, inside, after, List.forall_mem_cons.mpr ⟨hgap, hbefore⟩,
        hkey, hgaps, hinside, hafter, rfl⟩
  | item first rest item items hitem hrest _ =>
      obtain ⟨rfl, rfl⟩ := List.cons.inj hitems
      obtain ⟨hkey, hitem⟩ := hitem
      have hnone : Spacing [] := by simp [Spacing]
      cases hitem with
      -- A list is never a block; a parameter and a block without a title differ in their items.
      | list hlist => cases hlist
      | titled title' hgaps hbody =>
          refine ⟨[], _, _, _, rest, hnone, hkey, hgaps, hbody, hrest.spacing_of_nil rfl, ?_⟩
          simp

/-- Kinds that lack the brace of their last block. -/
theorem Spelled.last_block {kinds : List Kind} {items inner : List Item} {key title : String}
    (h : Spelled (kinds ++ [.braceClose]) (items ++ [.block key (some title) inner])) :
    ∃ outer front gaps inside, Spelled outer items ∧ KeyOf front key ∧ Spacing gaps ∧
      Spelled inside inner ∧
      kinds = outer ++ (front ++ (.literal title.toList :: (gaps ++ .braceOpen :: inside))) := by
  obtain ⟨first, rest, hsplit, hfirst, hrest⟩ := h.split_append rfl
  obtain ⟨before, front, gaps, inside, after, hbefore, hkey, hgaps, hinside, hafter, rfl⟩ :=
    hrest.block_inv rfl
  -- The last token is the brace, so no white space follows it.
  obtain rfl : after = [] := by
    rcases after.eq_nil_or_concat' with rfl | ⟨others, kind, rfl⟩
    · rfl
    · have hkind : kind.isTrivia = true := hafter kind (by simp)
      have hlast := congrArg List.getLast? hsplit
      simp only [List.getLast?_append, List.getLast?_cons, Option.some_or] at hlast
      cases Option.some.inj hlast
      cases hkind
  refine ⟨first ++ before, front, gaps, inside, ?_, hkey, hgaps, hinside, ?_⟩
  · simpa using hfirst.append (.of_spacing hbefore)
  · have hsame : kinds ++ [.braceClose] = first ++ before ++ (front ++ (.literal title.toList ::
        (gaps ++ .braceOpen :: inside))) ++ [.braceClose] := by
      rw [hsplit]
      simp
    exact List.append_inj_left' hsame rfl

/-- **TWO BLOCKS ARE LEFT OPEN** where two closing braces make the last item a block, and the last
item of that another. -/
theorem opens_of_closed {kinds : List Kind} {items inner own : List Item}
    {key title key' title' : String}
    (h : Spelled (kinds ++ [.braceClose, .braceClose])
      (items ++ [.block key (some title) (inner ++ [.block key' (some title') own])])) :
    Opens kinds [⟨key', title'.toList, inner⟩, ⟨key, title.toList, items⟩] own := by
  rw [List.append_cons] at h
  obtain ⟨outer, front, gaps, inside, houter, hkey, hgaps, hinside, hkinds⟩ := h.last_block
  -- The inner block is not empty, so the brace in front of the last is its last token.
  rcases inside.eq_nil_or_concat' with rfl | ⟨others, kind, rfl⟩
  · obtain ⟨_, _, hnil, _, hlast⟩ := hinside.split_append rfl
    obtain ⟨_, _, _, _, _, _, _, _, _, _, rfl⟩ := hlast.block_inv rfl
    simp at hnil
  · have hsame : kinds ++ [.braceClose] = outer ++ (front ++ (.literal title.toList ::
        (gaps ++ .braceOpen :: others))) ++ [kind] := by
      rw [hkinds]
      simp
    obtain ⟨rfl, hkind⟩ := List.append_inj' hsame rfl
    cases hkind
    obtain ⟨outer', front', gaps', inside', houter', hkey', hgaps', hinside', rfl⟩ :=
      hinside.last_block
    simpa using ((Opens.top houter).inside hkey hgaps houter').inside hkey' hgaps' hinside'

end LookmlProject.Lookml
