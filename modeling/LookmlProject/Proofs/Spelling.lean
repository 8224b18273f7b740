import LookmlProject.Proofs.Reading

/-!
# The parser reads nothing but the grammar

What the parser took from the stream spells the items that it found, and no block among them holds a
key twice (`spelled_of_items`).  Each reader is inverted once: from what it found to the tokens that
it took.
-/

namespace LookmlProject.Lookml

namespace Reader

variable {α β : Type} {ts rest : List Token} {deepest deepest' : Nat}

/-- What two joined readers found, the second found behind what the first found. -/
theorem exists_of_bind {first : Reader α} {next : α → Reader β} {b : β}
    (h : (first >>= next) ts deepest = .found b rest deepest') :
    ∃ a mid between, first ts deepest = .found a mid between ∧
      next a mid between = .found b rest deepest' := by
  rw [bind_eq] at h
  cases hfirst : first ts deepest with
  | found a mid between => exact ⟨a, mid, between, rfl, by rwa [hfirst] at h⟩
  | absent _ => rw [hfirst] at h; cases h
  | fault _ => rw [hfirst] at h; cases h

theorem eq_of_pure {a b : α} (h : (pure a : Reader α) ts deepest = .found b rest deepest') :
    b = a ∧ rest = ts := by
  cases h
  exact ⟨rfl, rfl⟩

/-- The reader of white space takes white space. -/
theorem spacing_of_trivia (h : trivia ts deepest = .found () rest deepest') :
    ∃ gaps, Spacing gaps ∧ kindsOf ts = gaps ++ kindsOf rest := by
  cases h
  exact exists_spacing ts

/-- The reader of an expected token takes that token. -/
theorem eq_of_expect {kind : Kind} (h : expect kind ts deepest = .found () rest deepest') :
    kindsOf ts = kind :: kindsOf rest := by
  cases ts with
  | nil => cases h
  | cons t ts =>
      rw [expect] at h
      split at h
      · next hkind => cases h; rw [← hkind]; rfl
      · cases h

/-- A reader that tests the token ahead goes one of two ways. -/
theorem cases_of_ahead {test : Kind → Bool} {second third : Reader β} {b : β}
    (h : (do if ← ahead test then second else third : Reader β) ts deepest =
      .found b rest deepest') :
    ((∃ kind more, skipKinds (kindsOf ts) = kind :: more ∧ test kind = true) ∧
      second ts deepest = .found b rest deepest') ∨ third ts deepest = .found b rest deepest' := by
  rw [bind_eq, ahead] at h
  rw [← kindsOf_skip]
  cases hskip : skip ts with
  | nil => exact .inr (by simpa [hskip] using h)
  | cons t more =>
      cases htest : test t.kind with
      | true => exact .inl ⟨⟨t.kind, _, rfl, htest⟩, by simpa [hskip, htest] using h⟩
      | false => exact .inr (by simpa [hskip, htest] using h)

/-- The reader of literals takes a literal. -/
theorem eq_of_literal {name : String} (h : literal ts deepest = .found name rest deepest') :
    ∃ text, name = String.ofList text ∧ kindsOf ts = .literal text :: kindsOf rest := by
  unfold literal at h
  split at h
  · cases h; exact ⟨_, rfl, rfl⟩
  · cases h

/-- The reader of keys takes a key with the white space around it. -/
theorem keyOf_of_key {name : String} (h : key ts deepest = .found name rest deepest') :
    ∃ gaps front, Spacing gaps ∧ KeyOf front name ∧
      kindsOf ts = gaps ++ (front ++ kindsOf rest) := by
  obtain ⟨_, _, _, hgaps, h⟩ := exists_of_bind h
  obtain ⟨name', _, _, hliteral, h⟩ := exists_of_bind h
  obtain ⟨_, _, _, hbefore, h⟩ := exists_of_bind h
  obtain ⟨_, _, _, hcolon, h⟩ := exists_of_bind h
  obtain ⟨_, _, _, hafter, h⟩ := exists_of_bind h
  -- The five readers are peeled off first, then each is told by what it took.
  obtain ⟨rfl, rfl⟩ := eq_of_pure h
  obtain ⟨gaps, hgaps, hts⟩ := spacing_of_trivia hgaps
  obtain ⟨text, rfl, htext⟩ := eq_of_literal hliteral
  obtain ⟨before, hbefore, hts'⟩ := spacing_of_trivia hbefore
  obtain ⟨after, hafter, hts''⟩ := spacing_of_trivia hafter
  refine ⟨gaps, _, hgaps, KeyOf.mk hbefore hafter, ?_⟩
  rw [hts, htext, hts', eq_of_expect hcolon, hts'']
  simp

/-- The reader of values takes a spelling of the value. -/
theorem valueOf_of_value {text : String} (h : value ts deepest = .found text rest deepest') :
    ∃ middle, ValueOf middle text ∧ kindsOf ts = middle ++ kindsOf rest := by
  unfold value at h
  split at h
  · cases h; exact ⟨_, .literal _, rfl⟩
  · cases h; exact ⟨_, .quoted _, rfl⟩
  · cases h; exact ⟨_, .expression _, rfl⟩
  · cases h
  · cases h

/-- The reader of parameters takes a key and a value. -/
theorem pairElement_of_pair {p : String × String} (h : pair ts deepest = .found p rest deepest') :
    ∃ gaps front middle, Spacing gaps ∧ KeyOf front p.1 ∧ ValueOf middle p.2 ∧
      kindsOf ts = gaps ++ (front ++ (middle ++ kindsOf rest)) := by
  obtain ⟨name, mid, _, hkey, h⟩ := exists_of_bind h
  obtain ⟨text, _, _, hvalue, h⟩ := exists_of_bind h
  obtain ⟨rfl, rfl⟩ := eq_of_pure h
  obtain ⟨gaps, front, hgaps, hkey, hts⟩ := keyOf_of_key hkey
  obtain ⟨middle, hvalue, hmid⟩ := valueOf_of_value hvalue
  exact ⟨gaps, front, middle, hgaps, hkey, hvalue, by rw [hts, hmid]⟩

/-- What a reader of elements found is spelled by what it took. -/
def SpellsElements (reader : Reader α) (element : List Kind → α → Prop) : Prop :=
  ∀ {ts rest deepest deepest' a}, reader ts deepest = .found a rest deepest' →
    ∃ kinds, element kinds a ∧ kindsOf ts = kinds ++ kindsOf rest

/-- What is found as a parameter in a list is spelled as one. -/
theorem spellsElements_pair : SpellsElements pair PairElement := by
  intro ts rest deepest deepest' p h
  obtain ⟨gaps, front, middle, hgaps, hkey, hvalue, hts⟩ := pairElement_of_pair h
  exact ⟨_, .mk hgaps hkey hvalue, by simpa using hts⟩

/-- What is found as a plain value in a list is spelled as one. -/
theorem spellsElements_listValue : SpellsElements listValue PlainElement := by
  intro ts rest deepest deepest' text h
  rcases cases_of_ahead h with ⟨⟨kind, more, hskip, hkind⟩, hfound⟩ | hnone
  · obtain ⟨_, _, _, htrivia, hfound⟩ := exists_of_bind hfound
    obtain ⟨text, _, _, hvalue, hfound⟩ := exists_of_bind hfound
    obtain ⟨_, _, _, htrivia', hfound⟩ := exists_of_bind hfound
    obtain ⟨rfl, rfl⟩ := eq_of_pure hfound
    obtain ⟨before, hbefore, hts⟩ := spacing_of_trivia htrivia
    obtain ⟨middle, hmiddle, hts'⟩ := valueOf_of_value hvalue
    obtain ⟨after, hafter, hts''⟩ := spacing_of_trivia htrivia'
    -- The token ahead is a literal or a quoted text, so the value is this one token.
    rw [hts, skipKinds_spacing hbefore, hts', hmiddle.skipKinds_append] at hskip
    cases hmiddle with
    | literal text => exact ⟨_, .mk hbefore rfl (.literal text) hafter, by simp [hts, hts', hts'']⟩
    | quoted text => exact ⟨_, .mk hbefore rfl (.quoted text) hafter, by simp [hts, hts', hts'']⟩
    | expression text => cases hskip; cases hkind
  · cases hnone

/-- What is found behind the first element is spelled with commas. -/
theorem spells_moreElements {reader : Reader α} {element : List Kind → α → Prop}
    (hspells : SpellsElements reader element) (fuel : Nat) {as : List α}
    (h : moreElements reader fuel ts deepest = .found as rest deepest') :
    ∃ kinds, MoreElements element kinds as ∧ kindsOf ts = kinds ++ kindsOf rest := by
  induction fuel generalizing ts deepest deepest' as with
  | zero => cases h
  | succ fuel ih =>
      rcases cases_of_ahead h with ⟨_, hnil⟩ | hmore
      · obtain ⟨rfl, rfl⟩ := eq_of_pure hnil
        exact ⟨[], .nil, rfl⟩
      · obtain ⟨_, mid, _, hcomma, hmore⟩ := exists_of_bind hmore
        have hts := eq_of_expect hcomma
        rcases cases_of_ahead hmore with ⟨_, hnil⟩ | hcons
        · obtain ⟨rfl, rfl⟩ := eq_of_pure hnil
          exact ⟨[.comma], .comma, hts⟩
        · obtain ⟨a, _, _, hfirst, hcons⟩ := exists_of_bind hcons
          obtain ⟨others, _, _, hothers, hcons⟩ := exists_of_bind hcons
          obtain ⟨rfl, rfl⟩ := eq_of_pure hcons
          obtain ⟨first, helement, hmid⟩ := hspells hfirst
          obtain ⟨kinds, hkinds, hrest⟩ := ih hothers
          exact ⟨_, .cons helement hkinds, by simp [hts, hmid, hrest]⟩

/-- The elements that are found are the first and those spelled behind it. -/
theorem spells_elementsAfter {reader : Reader α} {element : List Kind → α → Prop}
    (hspells : SpellsElements reader element) {first : α} {as : List α}
    (h : elementsAfter reader first ts deepest = .found as rest deepest') :
    ∃ others kinds, as = first :: others ∧ MoreElements element kinds others ∧
      kindsOf ts = kinds ++ kindsOf rest := by
  obtain ⟨others, _, _, hothers, h⟩ := exists_of_bind h
  obtain ⟨rfl, rfl⟩ := eq_of_pure h
  obtain ⟨kinds, hkinds, hts⟩ := spells_moreElements hspells _ hothers
  exact ⟨others, kinds, rfl, hkinds, hts⟩

/-- An optional reader has found something, or has taken nothing. -/
theorem eq_of_optional {reader : Reader α} {result : Option α}
    (h : optional reader ts deepest = .found result rest deepest') :
    (∃ a between, result = some a ∧ reader ts deepest = .found a rest between) ∨
      result = none ∧ rest = ts := by
  rw [optional] at h
  split at h
  · next heq => cases h; exact .inl ⟨_, _, rfl, heq⟩
  · cases h; exact .inr ⟨rfl, rfl⟩
  · cases h

/-- The reader of a leading comma takes it with the white space around it. -/
theorem lead_of_comma (h : comma ts deepest = .found () rest deepest') :
    ∃ lead gaps, Lead lead ∧ Spacing gaps ∧ kindsOf ts = lead ++ (gaps ++ kindsOf rest) := by
  obtain ⟨_, _, _, htrivia, h⟩ := exists_of_bind h
  obtain ⟨_, mid, _, hcomma, h⟩ := exists_of_bind h
  obtain ⟨before, hbefore, hts⟩ := spacing_of_trivia htrivia
  have hmid := eq_of_expect hcomma
  rcases cases_of_ahead h with ⟨_, hend⟩ | hgoes
  · obtain ⟨_, rfl⟩ := eq_of_pure hend
    exact ⟨_, [], .comma hbefore, by simp [Spacing], by simp [hts, hmid]⟩
  · obtain ⟨after, hafter, hrest⟩ := spacing_of_trivia hgoes
    exact ⟨_, after, .comma hbefore, hafter, by simp [hts, hmid, hrest]⟩

/-- The elements of a list, before the white space in front of the closing bracket. -/
theorem listOf_of_listBody {name : String} {item : Item}
    (h : listBody name ts deepest = .found item rest deepest') :
    ∃ kinds, kindsOf ts = kinds ++ kindsOf rest ∧
      ∀ gaps, Spacing gaps → ListOf name (kinds ++ gaps) item := by
  obtain ⟨result, mid, _, hcomma, hbody⟩ := exists_of_bind h
  have hlead : ∃ lead gaps, Lead lead ∧ Spacing gaps ∧
      kindsOf ts = lead ++ (gaps ++ kindsOf mid) := by
    rcases eq_of_optional hcomma with ⟨_, _, _, hcomma⟩ | ⟨_, rfl⟩
    · exact lead_of_comma hcomma
    · exact ⟨[], [], .none, by simp [Spacing], rfl⟩
  obtain ⟨lead, before, hlead, hbefore, hts⟩ := hlead
  obtain ⟨first, mid', _, hoptional, hbody⟩ := exists_of_bind hbody
  -- The first element decides: a pair makes it a list of pairs, else it is one of plain values.
  rcases eq_of_optional hoptional with ⟨p, _, rfl, hpair⟩ | ⟨rfl, hsame⟩
  · obtain ⟨all, _, _, hall, hbody⟩ := exists_of_bind hbody
    obtain ⟨rfl, rfl⟩ := eq_of_pure hbody
    obtain ⟨first, hfirst, hmid⟩ := spellsElements_pair hpair
    obtain ⟨others, more, rfl, hmore, hmid'⟩ := spells_elementsAfter spellsElements_pair hall
    refine ⟨lead ++ (before ++ first ++ more), by simp [hts, hmid, hmid'], ?_⟩
    intro after hafter
    simpa using ListOf.pairs hlead (PairElement.spacing_append hbefore hfirst) hmore hafter
  · rw [hsame] at hbody
    obtain ⟨text, _, _, htext, hbody⟩ := exists_of_bind hbody
    obtain ⟨all, _, _, hall, hbody⟩ := exists_of_bind hbody
    obtain ⟨rfl, rfl⟩ := eq_of_pure hbody
    obtain ⟨first, hfirst, hmid⟩ := spellsElements_listValue htext
    obtain ⟨others, more, rfl, hmore, hmid'⟩ := spells_elementsAfter spellsElements_listValue hall
    refine ⟨lead ++ (before ++ first ++ more), by simp [hts, hmid, hmid'], ?_⟩
    intro after hafter
    simpa using ListOf.values hlead (PlainElement.spacing_append hbefore hfirst) hmore hafter

/-- The reader of lists takes a key and a list in brackets. -/
theorem listOf_of_list {item : Item} (h : list ts deepest = .found item rest deepest') :
    ∃ gaps front middle after name, Spacing gaps ∧ KeyOf front name ∧ ListOf name middle item ∧
      Spacing after ∧ kindsOf ts = gaps ++ (front ++ .bracketOpen ::
        (middle ++ .bracketClose :: (after ++ kindsOf rest))) := by
  obtain ⟨name, _, _, hkey, h⟩ := exists_of_bind h
  obtain ⟨_, _, _, htrivia, h⟩ := exists_of_bind h
  obtain ⟨_, inside, _, hopen, h⟩ := exists_of_bind h
  obtain ⟨body, mid, _, hbody, h⟩ := exists_of_bind h
  rcases cases_of_ahead h with ⟨_, hclosed⟩ | hnone
  · obtain ⟨_, _, _, htrivia', hclosed⟩ := exists_of_bind hclosed
    obtain ⟨_, _, _, hclose, hclosed⟩ := exists_of_bind hclosed
    obtain ⟨_, _, _, htrivia'', hclosed⟩ := exists_of_bind hclosed
    obtain ⟨rfl, rfl⟩ := eq_of_pure hclosed
    obtain ⟨gaps, front, hgaps, hkey, hts⟩ := keyOf_of_key hkey
    obtain ⟨before, hbefore, hts'⟩ := spacing_of_trivia htrivia
    obtain ⟨last, hlast, hmid⟩ := spacing_of_trivia htrivia'
    obtain ⟨after, hafter, hrest⟩ := spacing_of_trivia htrivia''
    -- Either there are elements in front of the last white space, or this is all between the
    -- brackets.
    have hlist : ∃ middle, ListOf name middle (body.getD (.values name [])) ∧
        kindsOf inside = middle ++ .bracketClose :: (after ++ kindsOf rest) := by
      have hclose := eq_of_expect hclose
      rcases eq_of_optional hbody with ⟨item, _, rfl, hitem⟩ | ⟨rfl, rfl⟩
      · obtain ⟨kinds, hinside, hlist⟩ := listOf_of_listBody hitem
        exact ⟨_, hlist last hlast, by simp [hinside, hmid, hclose, hrest]⟩
      · exact ⟨last, .none hlast, by simp [hmid, hclose, hrest]⟩
    obtain ⟨middle, hlist, hinside⟩ := hlist
    refine ⟨gaps, _, middle, after, name, hgaps, hkey.append_spacing hbefore, hlist, hafter, ?_⟩
    rw [hts, hts', eq_of_expect hopen, hinside]
    simp
  · cases hnone

/-- The reader of titles takes a literal or nothing. -/
theorem eq_of_literal? {title : Option String}
    (h : literal? ts deepest = .found title rest deepest') :
    ∃ text, title = text.map String.ofList ∧ kindsOf ts = titleKinds text ++ kindsOf rest := by
  unfold literal? at h
  split at h
  · next text _ _ => cases h; exact ⟨some text, rfl, rfl⟩
  · cases h; exact ⟨none, rfl, rfl⟩

/-- What a reader of items found is spelled by what it took, and no block holds a key twice; it
stopped at a closing brace or the end of the stream. -/
structure SpellsItems (reader : Reader (List Item)) : Prop where
  spelled : ∀ {ts rest deepest deepest' items}, reader ts deepest = .found items rest deepest' →
    ∃ kinds, Spelled kinds items ∧ Item.allKeyed items = true ∧
      kindsOf ts = kinds ++ kindsOf rest ∧ ClosesItems (kindsOf rest)

/-- What a reader of one item found, followed by a spelling of others, makes a spelling. -/
structure SpellsItem (reader : Reader Item) : Prop where
  spelled : ∀ {ts rest deepest deepest' item}, reader ts deepest = .found item rest deepest' →
    ∃ kinds, item.keyed = true ∧ kindsOf ts = kinds ++ kindsOf rest ∧
      ∀ {others items}, Spelled others items → Spelled (kinds ++ others) (item :: items)

/-- What is found as a block is spelled as one, if its body is spelled and has distinct keys. -/
theorem spellsItem_block {body : Reader (List Item)} (hbody : SpellsItems body)
    (hdistinct : ∀ {ts rest deepest deepest' items}, body ts deepest = .found items rest deepest' →
      repeatedKey? (items.map Item.key) = none) : SpellsItem (block body) := by
  refine ⟨?_⟩
  intro ts rest deepest deepest' item h
  obtain ⟨name, _, _, hkey, h⟩ := exists_of_bind h
  obtain ⟨title, _, _, htitle, h⟩ := exists_of_bind h
  obtain ⟨_, _, _, htrivia, h⟩ := exists_of_bind h
  obtain ⟨_, _, _, hopen, h⟩ := exists_of_bind h
  obtain ⟨_, _, _, htrivia₁, h⟩ := exists_of_bind h
  obtain ⟨items, _, _, hitems, h⟩ := exists_of_bind h
  obtain ⟨_, _, _, htrivia₂, h⟩ := exists_of_bind h
  obtain ⟨_, _, _, hclose, h⟩ := exists_of_bind h
  obtain ⟨_, _, _, htrivia₃, h⟩ := exists_of_bind h
  obtain ⟨rfl, rfl⟩ := eq_of_pure h
  obtain ⟨before, front, hbefore, hkey, hts⟩ := keyOf_of_key hkey
  obtain ⟨text, rfl, htext⟩ := eq_of_literal? htitle
  obtain ⟨gaps, hgaps, hmid⟩ := spacing_of_trivia htrivia
  obtain ⟨gaps₁, hgaps₁, hmid₁⟩ := spacing_of_trivia htrivia₁
  obtain ⟨inner, hinner, hkeyed, hmid₂, _⟩ := hbody.spelled hitems
  obtain ⟨gaps₂, hgaps₂, hmid₃⟩ := spacing_of_trivia htrivia₂
  obtain ⟨gaps₃, hgaps₃, hmid₄⟩ := spacing_of_trivia htrivia₃
  -- The white space on either side of the body belongs to its spelling.
  have hinner' : Spelled (gaps₁ ++ (inner ++ gaps₂)) items := by
    simpa using (Spelled.spacing_append hgaps₁ hinner).append (.of_spacing hgaps₂)
  refine ⟨before ++ (front ++ (titleKinds text ++ (gaps ++ .braceOpen ::
    ((gaps₁ ++ (inner ++ gaps₂)) ++ .braceClose :: gaps₃)))), ?_, ?_, fun hothers => ?_⟩
  · simp [Item.keyed, hdistinct hitems, hkeyed]
  · rw [hts, htext, hmid, eq_of_expect hopen, hmid₁, hmid₂, hmid₃, eq_of_expect hclose, hmid₄]
    simp
  · have hothers' := Spelled.spacing_append hgaps₃ hothers
    simpa using Spelled.spacing_append hbefore (Spelled.block text hkey hgaps hinner' hothers')

/-- What is found as a parameter is spelled as one. -/
theorem spellsItem_pair : SpellsItem (do let p ← pair; return .pair p.1 p.2) := by
  refine ⟨?_⟩
  intro ts rest deepest deepest' item h
  obtain ⟨p, _, _, hpair, h⟩ := exists_of_bind h
  obtain ⟨rfl, rfl⟩ := eq_of_pure h
  obtain ⟨gaps, front, middle, hgaps, hkey, hvalue, hts⟩ := pairElement_of_pair hpair
  refine ⟨gaps ++ (front ++ middle), rfl, by simpa using hts, fun hothers => ?_⟩
  simpa using Spelled.spacing_append hgaps (Spelled.pair hkey hvalue hothers)

/-- What is found as a list is spelled as one. -/
theorem spellsItem_list : SpellsItem list := by
  refine ⟨?_⟩
  intro ts rest deepest deepest' item h
  obtain ⟨gaps, front, middle, after, name, hgaps, hkey, hlist, hafter, hts⟩ := listOf_of_list h
  refine ⟨gaps ++ (front ++ .bracketOpen :: (middle ++ .bracketClose :: after)),
    by cases hlist <;> rfl, by simpa using hts, fun hothers => ?_⟩
  have hothers' := Spelled.spacing_append hafter hothers
  simpa using Spelled.spacing_append hgaps (Spelled.list hkey hlist hothers')

/-- Two alternatives find nothing but what either of them finds. -/
theorem SpellsItem.orElse {first second : Reader Item} (h : SpellsItem first)
    (h' : SpellsItem second) : SpellsItem (first.orElse second) := by
  refine ⟨?_⟩
  intro ts rest deepest deepest' item hfound
  rw [Reader.orElse] at hfound
  cases hfirst : first ts deepest with
  | absent between => rw [hfirst] at hfound; exact h'.spelled hfound
  | found => rw [hfirst] at hfound; exact h.spelled (hfirst.trans hfound)
  | fault => rw [hfirst] at hfound; cases hfound

theorem spellsItem_unknown : SpellsItem unknown := by
  refine ⟨?_⟩
  intro ts rest deepest deepest' item h
  obtain ⟨cause, hfault⟩ := faults_unknown (kindsOf ts) ts deepest rfl
  rw [hfault] at h
  cases h

/-- Items that pass the check of a block have distinct keys, and are left as they are. -/
theorem eq_of_distinct {items found : List Item}
    (h : distinct items ts deepest = .found found rest deepest') :
    repeatedKey? (items.map Item.key) = none ∧ found = items ∧ rest = ts := by
  rw [distinct] at h
  split at h
  · next hnone => cases h; exact ⟨hnone, rfl, rfl⟩
  · cases h

/-- What is found as an item is spelled as one, if the body of a block is spelled. -/
theorem spellsItem_item {body : Reader (List Item)} (hbody : SpellsItems body) :
    SpellsItem (item (do distinct (← body))) := by
  -- The check of keys stands behind the body, so what it lets through is what the body has found.
  have hkeys : ∀ {ts rest deepest deepest' items},
      (do distinct (← body) : Reader (List Item)) ts deepest = .found items rest deepest' →
      (∃ between, body ts deepest = .found items rest between) ∧
        repeatedKey? (items.map Item.key) = none := by
    intro ts rest deepest deepest' items h
    obtain ⟨items', _, between, hitems, h⟩ := exists_of_bind h
    obtain ⟨hnone, rfl, rfl⟩ := eq_of_distinct h
    exact ⟨⟨between, hitems⟩, hnone⟩
  have hblock : SpellsItem (block (do distinct (← body))) := by
    refine spellsItem_block ⟨fun h => ?_⟩ fun h => (hkeys h).2
    obtain ⟨⟨_, hitems⟩, _⟩ := hkeys h
    exact hbody.spelled hitems
  exact hblock.orElse (spellsItem_pair.orElse (spellsItem_list.orElse spellsItem_unknown))

/-- **EVERY ITEM FOUND IS SPELLED**, whatever the fuel. -/
theorem spellsItems_items (fuel : Nat) : SpellsItems (Reader.items fuel) := by
  -- By induction on the fuel: the body of a block and the items behind it are read with less.
  induction fuel with
  | zero =>
      refine ⟨?_⟩
      intro ts rest deepest deepest' items h
      have hfaults : Faults (Reader.items 0) (kindsOf ts) := faults_unknown _
      obtain ⟨cause, hfault⟩ := hfaults ts deepest rfl
      rw [hfault] at h
      cases h
  | succ fuel ih =>
      refine ⟨?_⟩
      intro ts rest deepest deepest' items h
      rcases cases_of_ahead h with ⟨hcloses, hnil⟩ | hcons
      · obtain ⟨rfl, rfl⟩ := eq_of_pure hnil
        exact ⟨[], .nil, rfl, rfl, hcloses⟩
      · obtain ⟨first, _, _, hfirst, hcons⟩ := exists_of_bind hcons
        obtain ⟨others, _, _, hothers, hcons⟩ := exists_of_bind hcons
        obtain ⟨rfl, rfl⟩ := eq_of_pure hcons
        obtain ⟨kinds, hkeyed, hts, hspelled⟩ := (spellsItem_item ih).spelled hfirst
        obtain ⟨kinds', hothers, hkeyed', hmid, hcloses⟩ := ih.spelled hothers
        exact ⟨_, hspelled hothers, by simp [Item.allKeyed, hkeyed, hkeyed'],
          by simp [hts, hmid], hcloses⟩

/-! ## The parser finds items or stops -/

/-- A reader that never finds nothing. -/
def Answers (reader : Reader α) : Prop :=
  ∀ ts deepest deepest', reader ts deepest ≠ .absent deepest'

/-- A token that nothing can start with is answered by a fault. -/
theorem answers_unknown : Answers (unknown : Reader α) := by
  intro ts deepest deepest' h
  obtain ⟨cause, hfault⟩ := (faults_unknown _ : Faults (unknown : Reader α) _) ts deepest rfl
  rw [hfault] at h
  cases h

/-- Joined readers answer if both do. -/
theorem Answers.bind {first : Reader α} {next : α → Reader β} (h : Answers first)
    (h' : ∀ a, Answers (next a)) : Answers (first >>= next) := by
  intro ts deepest deepest' habsent
  rw [bind_eq] at habsent
  cases hfirst : first ts deepest with
  | found a mid between => rw [hfirst] at habsent; exact h' a _ _ _ habsent
  | absent between => exact h _ _ _ hfirst
  | fault => rw [hfirst] at habsent; cases habsent

/-- Alternatives answer if the last one does. -/
theorem Answers.orElse {second : Reader α} (h : Answers second) (first : Reader α) :
    Answers (first.orElse second) := by
  intro ts deepest deepest' habsent
  rw [Reader.orElse] at habsent
  split at habsent
  · exact h _ _ _ habsent
  · next hne => exact hne _ habsent

theorem answers_pure (a : α) : Answers (pure a) := by
  intro ts deepest deepest' h
  cases h

theorem answers_ahead (test : Kind → Bool) : Answers (ahead test) := by
  intro ts deepest deepest' h
  rw [ahead] at h
  split at h <;> cases h

/-- The reader of items always answers: an item that it does not know is a fault. -/
theorem answers_items (fuel : Nat) : Answers (Reader.items fuel) := by
  induction fuel with
  | zero => exact answers_unknown
  | succ fuel ih =>
      refine (answers_ahead endsItems).bind fun passed => ?_
      cases passed with
      | true => exact answers_pure []
      | false =>
          have hitem : Answers (item (do distinct (← Reader.items fuel))) :=
            ((answers_unknown.orElse _).orElse _).orElse _
          exact hitem.bind fun first => ih.bind fun others => answers_pure _

end Reader

/-- **THE PARSER READS NOTHING ELSE**: what it took spells what it found. -/
theorem spelled_of_items {fuel deepest deepest' : Nat} {ts rest : List Token} {items : List Item}
    (h : Reader.items fuel ts deepest = .found items rest deepest') :
    ∃ kinds, Spelled kinds items ∧ Item.allKeyed items = true ∧
      kindsOf ts = kinds ++ kindsOf rest ∧ ClosesItems (kindsOf rest) :=
  (Reader.spellsItems_items fuel).spelled h

end LookmlProject.Lookml
