import LookmlProject.Proofs.Grammar

/-!
# The parser reads the grammar

Wherever a spelling stands in front of a closing brace or the end of the stream, the parser finds
its items, unless a block in it holds a key twice, and then it stops with a fault
(`Spelled.reads`).

The readers are judged on kinds of tokens by `Finds`, `Misses` and `Faults`, which leave out the
lines of the tokens and the deepest failure: neither changes what is found.  The judgements follow
the readers: one lemma for each way in which two readers are joined, then one for each reader.
-/

namespace LookmlProject.Lookml

/-! ## Judging readers on kinds of tokens -/

namespace Reader

variable {α β : Type}

/-- A reader finds a result in front of some kinds of tokens and leaves others. -/
def Finds (reader : Reader α) (kinds : List Kind) (result : α) (rest : List Kind) : Prop :=
  ∀ ts deepest, kindsOf ts = kinds →
    ∃ ts' deepest', reader ts deepest = .found result ts' deepest' ∧ kindsOf ts' = rest

/-- A reader finds nothing in front of some kinds of tokens. -/
def Misses (reader : Reader α) (kinds : List Kind) : Prop :=
  ∀ ts deepest, kindsOf ts = kinds → ∃ deepest', reader ts deepest = .absent deepest'

/-- A reader stops with a fault in front of some kinds of tokens. -/
def Faults (reader : Reader α) (kinds : List Kind) : Prop :=
  ∀ ts deepest, kindsOf ts = kinds → ∃ cause, reader ts deepest = .fault cause

/-- Two readers in a row: the second starts where the first has found something. -/
theorem bind_eq (first : Reader α) (next : α → Reader β) (ts : List Token) (deepest : Nat) :
    (first >>= next) ts deepest = match first ts deepest with
      | .found result rest deepest => next result rest deepest
      | .absent deepest => .absent deepest
      | .fault cause => .fault cause := rfl

variable {first : Reader α} {next : α → Reader β} {kinds mid rest : List Kind} {a : α} {b : β}

/-- A reader that only returns a result finds it and takes no token. -/
theorem finds_pure (a : α) (kinds : List Kind) : Finds (pure a) kinds a kinds :=
  fun ts deepest h => ⟨ts, deepest, rfl, h⟩

/-- What two readers find one after the other, they find when joined. -/
theorem Finds.bind (h : Finds first kinds a mid) (h' : Finds (next a) mid b rest) :
    Finds (first >>= next) kinds b rest := by
  intro ts deepest hts
  obtain ⟨ts', deepest', heq, hmid⟩ := h ts deepest hts
  rw [bind_eq, heq]
  exact h' ts' deepest' hmid

/-- A pair of readers misses if the second one misses behind what the first has found. -/
theorem Finds.bind_misses (h : Finds first kinds a mid) (h' : Misses (next a) mid) :
    Misses (first >>= next) kinds := by
  intro ts deepest hts
  obtain ⟨ts', deepest', heq, hmid⟩ := h ts deepest hts
  rw [bind_eq, heq]
  exact h' ts' deepest' hmid

/-- A pair of readers faults if the second one faults behind what the first has found. -/
theorem Finds.bind_faults (h : Finds first kinds a mid) (h' : Faults (next a) mid) :
    Faults (first >>= next) kinds := by
  intro ts deepest hts
  obtain ⟨ts', deepest', heq, hmid⟩ := h ts deepest hts
  rw [bind_eq, heq]
  exact h' ts' deepest' hmid

/-- Where the first reader of a pair misses, the second is not asked. -/
theorem Misses.bind (h : Misses first kinds) (next : α → Reader β) :
    Misses (first >>= next) kinds := by
  intro ts deepest hts
  obtain ⟨deepest', heq⟩ := h ts deepest hts
  exact ⟨deepest', by rw [bind_eq, heq]⟩

/-- Where the first reader of a pair faults, the second is not asked. -/
theorem Faults.bind (h : Faults first kinds) (next : α → Reader β) :
    Faults (first >>= next) kinds := by
  intro ts deepest hts
  obtain ⟨cause, heq⟩ := h ts deepest hts
  exact ⟨cause, by rw [bind_eq, heq]⟩

/-- Of two alternatives the first that finds something decides. -/
theorem Finds.orElse (h : Finds first kinds a rest) (second : Reader α) :
    Finds (first.orElse second) kinds a rest := by
  intro ts deepest hts
  obtain ⟨ts', deepest', heq, hrest⟩ := h ts deepest hts
  exact ⟨ts', deepest', by rw [Reader.orElse, heq], hrest⟩

/-- A fault of the first alternative is not mended by the second. -/
theorem Faults.orElse (h : Faults first kinds) (second : Reader α) :
    Faults (first.orElse second) kinds := by
  intro ts deepest hts
  obtain ⟨cause, heq⟩ := h ts deepest hts
  exact ⟨cause, by rw [Reader.orElse, heq]⟩

/-- The second alternative is asked, from the same token on, where the first misses. -/
theorem Misses.orElse {second : Reader α} (h : Misses first kinds)
    (h' : Finds second kinds a rest) :
    Finds (first.orElse second) kinds a rest := by
  intro ts deepest hts
  obtain ⟨deepest', heq⟩ := h ts deepest hts
  obtain ⟨ts', deepest'', heq', hrest⟩ := h' ts deepest' hts
  exact ⟨ts', deepest'', by rw [Reader.orElse, heq]; exact heq', hrest⟩

theorem Finds.optional (h : Finds first kinds a rest) :
    Finds (optional first) kinds (some a) rest := by
  intro ts deepest hts
  obtain ⟨ts', deepest', heq, hrest⟩ := h ts deepest hts
  exact ⟨ts', deepest', by rw [Reader.optional, heq], hrest⟩

theorem Misses.optional (h : Misses first kinds) : Finds (optional first) kinds none kinds := by
  intro ts deepest hts
  obtain ⟨deepest', heq⟩ := h ts deepest hts
  exact ⟨ts, deepest', by rw [Reader.optional, heq], hts⟩

/-! ## The small readers -/

theorem finds_trivia (kinds : List Kind) : Finds trivia kinds () (skipKinds kinds) :=
  fun ts deepest h => ⟨skip ts, deepest, rfl, by rw [kindsOf_skip, h]⟩

/-- The reader of nothing misses everywhere. -/
theorem misses_nothing (kinds : List Kind) : Misses (nothing : Reader α) kinds :=
  fun ts deepest _ => ⟨min deepest ts.length, rfl⟩

/-- The first of the kinds belongs to a first token. -/
theorem kindsOf_eq_cons {ts : List Token} {kind : Kind} {kinds : List Kind}
    (h : kindsOf ts = kind :: kinds) :
    ∃ line rest, ts = ⟨kind, line⟩ :: rest ∧ kindsOf rest = kinds := by
  obtain ⟨t, rest, rfl, hkind, hrest⟩ := List.map_eq_cons_iff.mp h
  exact ⟨t.line, rest, by rw [← hkind], hrest⟩

/-- An expected token is found where it stands. -/
theorem finds_expect (kind : Kind) (kinds : List Kind) :
    Finds (expect kind) (kind :: kinds) () kinds := by
  intro ts deepest h
  obtain ⟨line, rest, rfl, hrest⟩ := kindsOf_eq_cons h
  exact ⟨rest, deepest, by rw [expect]; exact if_pos rfl, hrest⟩

/-- An expected token is missed where another stands. -/
theorem misses_expect {kind kind' : Kind} (hne : kind' ≠ kind) (kinds : List Kind) :
    Misses (expect kind) (kind' :: kinds) := by
  intro ts deepest h
  obtain ⟨line, rest, rfl, _⟩ := kindsOf_eq_cons h
  exact ⟨_, by rw [expect]; exact if_neg hne⟩

/-- Looking ahead tests the first token behind the white space and takes nothing. -/
theorem finds_ahead {kind : Kind} {kinds more : List Kind} (h : skipKinds kinds = kind :: more)
    (test : Kind → Bool) : Finds (ahead test) kinds (test kind) kinds := by
  intro ts deepest hts
  rw [← hts, ← kindsOf_skip] at h
  obtain ⟨line, rest, hskip, _⟩ := kindsOf_eq_cons h
  exact ⟨ts, deepest, by rw [ahead, hskip], hts⟩

/-- A test of the token ahead that holds. -/
theorem finds_of_ahead {test : Kind → Bool} {kind : Kind} {more : List Kind}
    {second third : Reader β} (h : skipKinds kinds = kind :: more) (htest : test kind = true)
    (hsecond : Finds second kinds b rest) :
    Finds (do if ← ahead test then second else third) kinds b rest := by
  refine (finds_ahead h test).bind ?_
  rw [if_pos htest]
  exact hsecond

/-- A test of the token ahead that fails. -/
theorem finds_of_not_ahead {test : Kind → Bool} {kind : Kind} {more : List Kind}
    {second third : Reader β} (h : skipKinds kinds = kind :: more) (htest : test kind = false)
    (hthird : Finds third kinds b rest) :
    Finds (do if ← ahead test then second else third) kinds b rest := by
  refine (finds_ahead h test).bind ?_
  rw [if_neg (by simp [htest])]
  exact hthird

theorem finds_literal (text : List Char) (kinds : List Kind) :
    Finds literal (.literal text :: kinds) (String.ofList text) kinds := by
  intro ts deepest h
  obtain ⟨line, rest, rfl, hrest⟩ := kindsOf_eq_cons h
  exact ⟨rest, deepest, rfl, hrest⟩

theorem misses_literal {kind : Kind} (hne : ∀ text, kind ≠ .literal text) (kinds : List Kind) :
    Misses literal (kind :: kinds) := by
  intro ts deepest h
  obtain ⟨line, rest, rfl, _⟩ := kindsOf_eq_cons h
  cases kind with
  | literal text => exact absurd rfl (hne text)
  | _ => exact ⟨_, rfl⟩

theorem finds_literal?_some (text : List Char) (kinds : List Kind) :
    Finds literal? (.literal text :: kinds) (some (String.ofList text)) kinds := by
  intro ts deepest h
  obtain ⟨line, rest, rfl, hrest⟩ := kindsOf_eq_cons h
  exact ⟨rest, deepest, rfl, hrest⟩

theorem finds_literal?_none {kind : Kind} (hne : ∀ text, kind ≠ .literal text)
    (kinds : List Kind) : Finds literal? (kind :: kinds) none (kind :: kinds) := by
  intro ts deepest h
  obtain ⟨line, rest, rfl, _⟩ := kindsOf_eq_cons h
  cases kind with
  | literal text => exact absurd rfl (hne text)
  | _ => exact ⟨_, deepest, rfl, h⟩

/-- Every spelling of a value is read as its text. -/
theorem finds_value {middle : List Kind} {text : String} (h : ValueOf middle text)
    (kinds : List Kind) : Finds value (middle ++ kinds) text kinds := by
  intro ts deepest hts
  cases h with
  | literal text =>
      obtain ⟨line, rest, rfl, hrest⟩ := kindsOf_eq_cons hts
      exact ⟨rest, deepest, rfl, hrest⟩
  | quoted text =>
      obtain ⟨line, rest, rfl, hrest⟩ := kindsOf_eq_cons hts
      exact ⟨rest, deepest, rfl, hrest⟩
  | expression text =>
      obtain ⟨line, rest, rfl, hrest⟩ := kindsOf_eq_cons hts
      obtain ⟨line', rest', rfl, hrest'⟩ := kindsOf_eq_cons hrest
      exact ⟨rest', deepest, rfl, hrest'⟩

/-- No value starts with a bracket. -/
theorem misses_value_bracketOpen (kinds : List Kind) : Misses value (.bracketOpen :: kinds) := by
  intro ts deepest h
  obtain ⟨line, rest, rfl, _⟩ := kindsOf_eq_cons h
  exact ⟨_, rfl⟩

/-- A token that nothing can start with is a fault. -/
theorem faults_unknown (kinds : List Kind) : Faults (unknown : Reader α) kinds := by
  intro ts deepest _
  rw [unknown]
  split
  · exact ⟨_, rfl⟩
  · exact ⟨_, rfl⟩

/-! ## Keys and parameters -/

/-- A key is found with the white space behind its colon. -/
theorem finds_key {front kinds kinds' : List Kind} {name : String} (h : KeyOf front name)
    (hskip : skipKinds kinds = front ++ kinds') :
    Finds key kinds name (skipKinds kinds') := by
  obtain ⟨hbefore, hafter⟩ := h
  rename_i text before after
  have hstart : Finds trivia kinds ()
      (.literal text :: (before ++ .colon :: (after ++ kinds'))) := by
    simpa [hskip] using finds_trivia kinds
  have hcolon : Finds trivia (before ++ .colon :: (after ++ kinds')) ()
      (.colon :: (after ++ kinds')) := by
    have := finds_trivia (before ++ .colon :: (after ++ kinds'))
    rwa [skipKinds_spacing hbefore, skipKinds_cons rfl] at this
  have hend : Finds trivia (after ++ kinds') () (skipKinds kinds') := by
    have := finds_trivia (after ++ kinds')
    rwa [skipKinds_spacing hafter] at this
  exact hstart.bind <| (finds_literal text _).bind <| hcolon.bind <|
    (finds_expect .colon _).bind <| hend.bind <| finds_pure _ _

/-- No key stands where a literal is missing, or the colon after it. -/
theorem misses_key_of_not_literal {kind : Kind} {kinds more : List Kind}
    (hskip : skipKinds kinds = kind :: more) (hne : ∀ text, kind ≠ .literal text) :
    Misses key kinds := by
  have hstart := finds_trivia kinds
  rw [hskip] at hstart
  exact hstart.bind_misses ((misses_literal hne more).bind _)

/-- A literal without a colon behind it is no key. -/
theorem misses_key_of_not_colon {text : List Char} {kind : Kind} {kinds more more' : List Kind}
    (hskip : skipKinds kinds = .literal text :: more) (hmore : skipKinds more = kind :: more')
    (hne : kind ≠ .colon) : Misses key kinds := by
  have hstart := finds_trivia kinds
  rw [hskip] at hstart
  have hcolon := finds_trivia more
  rw [hmore] at hcolon
  exact hstart.bind_misses <| (finds_literal text more).bind_misses <|
    hcolon.bind_misses <| (misses_expect hne more').bind _

/-- A key with a value is found as a parameter. -/
theorem finds_pair {front middle kinds kinds' : List Kind} {name text : String}
    (hkey : KeyOf front name) (hvalue : ValueOf middle text)
    (hskip : skipKinds kinds = front ++ (middle ++ kinds')) :
    Finds pair kinds (name, text) kinds' := by
  have hfound := finds_key hkey hskip
  rw [ValueOf.skipKinds_append hvalue] at hfound
  exact hfound.bind <| (finds_value hvalue kinds').bind <| finds_pure _ _

/-! ## Lists -/

/-- What a reader of elements does in front of every spelling of an element: it finds the element
and takes at most the white space behind it. -/
structure ReadsElements (reader : Reader α) (element : List Kind → α → Prop) : Prop where
  /-- An element does not start like the end of a list. -/
  start : ∀ {kinds a}, element kinds a → ∀ tail,
    ∃ kind more, skipKinds (kinds ++ tail) = kind :: more ∧ isListEnd kind = false
  /-- A comma behind the element is left. -/
  comma : ∀ {kinds a}, element kinds a → ∀ tail,
    Finds reader (kinds ++ .comma :: tail) a (.comma :: tail)
  /-- At the end of the list the white space in front of it may be taken. -/
  close : ∀ {kinds a}, element kinds a → ∀ tail, ClosesList tail →
    ∃ rest, Finds reader (kinds ++ tail) a rest ∧ skipKinds rest = skipKinds tail

theorem finds_pairElement {kinds : List Kind} {p : String × String} (h : PairElement kinds p)
    (tail : List Kind) : Finds pair (kinds ++ tail) p tail := by
  obtain ⟨front, middle, hkey, hvalue, hskip⟩ := h.skipKinds_append tail
  exact finds_pair hkey hvalue hskip

/-- Parameters can be the elements of a list. -/
theorem readsElements_pair : ReadsElements pair PairElement where
  start h tail := by
    obtain ⟨front, middle, hkey, _, hskip⟩ := h.skipKinds_append tail
    obtain ⟨text, more, rfl⟩ := hkey.eq_literal_cons
    exact ⟨_, _, hskip, rfl⟩
  comma h tail := finds_pairElement h _
  close h tail _ := ⟨tail, finds_pairElement h tail, rfl⟩

/-- A plain value in a list is found with the white space behind it. -/
theorem finds_listValue {kind : Kind} {kinds after tail : List Kind} {text : String}
    (hkind : isListValue kind = true) (hvalue : ValueOf [kind] text) (hafter : Spacing after)
    (hskip : skipKinds kinds = kind :: (after ++ tail)) :
    Finds listValue kinds text (skipKinds tail) := by
  have hstart := finds_trivia kinds
  rw [hskip] at hstart
  have hend := finds_trivia (after ++ tail)
  rw [skipKinds_spacing hafter] at hend
  refine finds_of_ahead hskip hkind ?_
  exact hstart.bind <| (finds_value hvalue _).bind <| hend.bind <| finds_pure _ _

theorem finds_plainElement {kinds : List Kind} {text : String} (h : PlainElement kinds text)
    (tail : List Kind) : Finds listValue (kinds ++ tail) text (skipKinds tail) := by
  obtain ⟨kind, after, hkind, hvalue, hafter, hskip⟩ := h.skipKinds_append tail
  exact finds_listValue hkind hvalue hafter hskip

/-- What starts a plain value does not end a list. -/
theorem isListEnd_of_isListValue {kind : Kind} (h : isListValue kind = true) :
    isListEnd kind = false := by
  cases kind <;> first | rfl | cases h

/-- Plain values can be the elements of a list. -/
theorem readsElements_listValue : ReadsElements listValue PlainElement where
  start h tail := by
    obtain ⟨kind, after, hkind, _, _, hskip⟩ := h.skipKinds_append tail
    exact ⟨kind, _, hskip, isListEnd_of_isListValue hkind⟩
  comma h tail := by
    have hfound := finds_plainElement h (.comma :: tail)
    rwa [skipKinds_cons rfl] at hfound
  close h tail _ := ⟨_, finds_plainElement h tail, skipKinds_skipKinds tail⟩

/-- The elements behind the first, each with its comma, are found up to the end of the list, and so
is a comma that no element follows. -/
theorem finds_moreElements {reader : Reader α} {element : List Kind → α → Prop}
    (hreads : ReadsElements reader element) {kinds tail : List Kind} {as : List α}
    (h : MoreElements element kinds as) (htail : ClosesList tail) (fuel : Nat)
    (hfuel : kinds.length < fuel) :
    ∃ rest, Finds (moreElements reader fuel) (kinds ++ tail) as rest ∧
      skipKinds rest = skipKinds tail := by
  -- The induction follows the spelling of the rest of the list; `fuel` is more than its length, so
  -- it does not run out before the list ends.
  obtain ⟨more, hmore⟩ := id htail
  induction h generalizing fuel with
  | nil =>
      obtain ⟨fuel, rfl⟩ := Nat.exists_eq_succ_of_ne_zero (Nat.ne_zero_of_lt hfuel)
      exact ⟨tail, finds_of_ahead hmore rfl (finds_pure _ _), rfl⟩
  | comma =>
      obtain ⟨fuel, rfl⟩ := Nat.exists_eq_succ_of_ne_zero (Nat.ne_zero_of_lt hfuel)
      refine ⟨tail, finds_of_not_ahead (skipKinds_cons rfl tail) rfl ?_, rfl⟩
      exact (finds_expect .comma tail).bind (finds_of_ahead hmore rfl (finds_pure _ _))
  | cons hfirst hkinds ih =>
      rename_i first kinds a as
      obtain ⟨fuel, rfl⟩ := Nat.exists_eq_succ_of_ne_zero (Nat.ne_zero_of_lt hfuel)
      have hfuel' : kinds.length < fuel := by
        simp only [List.length_cons, List.length_append] at hfuel; omega
      obtain ⟨rest, hothers, hrest⟩ := ih fuel hfuel'
      obtain ⟨kind, _, hskip, hkind⟩ := hreads.start hfirst (kinds ++ tail)
      -- The element is followed by a comma or by the end of the list.
      have hfound : ∃ mid, Finds reader (first ++ (kinds ++ tail)) a mid ∧
          ∃ rest', Finds (moreElements reader fuel) mid as rest' ∧
            skipKinds rest' = skipKinds tail := by
        cases hkinds with
        | nil =>
            obtain ⟨mid, hmid, hmidskip⟩ := hreads.close hfirst tail htail
            obtain ⟨fuel, rfl⟩ := Nat.exists_eq_succ_of_ne_zero (Nat.ne_zero_of_lt hfuel')
            rw [hmore] at hmidskip
            exact ⟨mid, hmid, mid, finds_of_ahead hmidskip rfl (finds_pure _ _),
              hmidskip.trans hmore.symm⟩
        | comma => exact ⟨_, hreads.comma hfirst _, rest, hothers, hrest⟩
        | cons => exact ⟨_, hreads.comma hfirst _, rest, hothers, hrest⟩
      obtain ⟨mid, hmid, rest', hothers', hrest'⟩ := hfound
      refine ⟨rest', ?_, hrest'⟩
      rw [List.cons_append, List.append_assoc]
      refine finds_of_not_ahead (skipKinds_cons rfl _) rfl ((finds_expect .comma _).bind ?_)
      exact finds_of_not_ahead hskip hkind <| hmid.bind <| hothers'.bind <| finds_pure _ _

/-- The elements of a list are found behind the first, whatever the length of the stream. -/
theorem finds_elementsAfter {reader : Reader α} {element : List Kind → α → Prop}
    (hreads : ReadsElements reader element) {kinds tail : List Kind} {as : List α}
    (h : MoreElements element kinds as) (htail : ClosesList tail) (first : α) :
    ∃ rest, Finds (elementsAfter reader first) (kinds ++ tail) (first :: as) rest ∧
      skipKinds rest = skipKinds tail := by
  obtain ⟨rest, hmore, hrest⟩ := finds_moreElements hreads h htail ((kinds ++ tail).length + 1)
    (by simp only [List.length_append]; omega)
  refine ⟨rest, fun ts deepest hts => ?_, hrest⟩
  -- The reader takes its fuel from the length of the stream, which is that of the kinds.
  have hlength : ts.length = (kinds ++ tail).length := by rw [← hts, kindsOf, List.length_map]
  rw [elementsAfter, hlength]
  refine hmore.bind ?_ ts deepest hts
  exact finds_pure _ _

/-- No comma is found where another token stands behind the white space. -/
theorem misses_comma {kind : Kind} {kinds more : List Kind} (hskip : skipKinds kinds = kind :: more)
    (hkind : kind ≠ .comma) : Misses comma kinds := by
  have hstart := finds_trivia kinds
  rw [hskip] at hstart
  exact hstart.bind_misses ((misses_expect hkind more).bind _)

/-- The comma that may stand before the first element is taken, and the element stays. -/
theorem finds_lead {lead kinds more : List Kind} {kind : Kind} (hlead : Lead lead)
    (hskip : skipKinds kinds = kind :: more) (hcomma : kind ≠ .comma)
    (hend : isListEnd kind = false) :
    ∃ result mid, Finds (optional comma) (lead ++ kinds) result mid ∧
      skipKinds mid = skipKinds kinds := by
  cases hlead with
  | none => exact ⟨none, kinds, (misses_comma hskip hcomma).optional, rfl⟩
  | comma hbefore =>
      rename_i before
      have hstart := finds_trivia (before ++ [.comma] ++ kinds)
      rw [List.append_assoc, skipKinds_spacing hbefore, List.cons_append,
        skipKinds_cons rfl] at hstart
      refine ⟨some (), skipKinds kinds, ?_, skipKinds_skipKinds kinds⟩
      rw [List.append_assoc]
      exact (hstart.bind <| (finds_expect .comma _).bind <|
        finds_of_not_ahead hskip hend (finds_trivia kinds)).optional

/-- A plain element is no parameter. -/
theorem misses_pair_of_plain {kind : Kind} {kinds after tail : List Kind}
    {text : String} (hvalue : ValueOf [kind] text) (hafter : Spacing after)
    (hskip : skipKinds kinds = kind :: (after ++ tail))
    (htail : ∃ kind more, skipKinds tail = kind :: more ∧ kind ≠ .colon) : Misses pair kinds := by
  obtain ⟨next, more, hnext, hcolon⟩ := htail
  rw [← skipKinds_spacing hafter] at hnext
  refine Misses.bind ?_ _
  -- A literal could be a key, but no colon follows it; a quoted text cannot be one.
  cases hvalue with
  | literal => exact misses_key_of_not_colon hskip hnext hcolon
  | quoted => exact misses_key_of_not_literal hskip (by simp)

/-- The body of a list of plain values is found. -/
theorem finds_listBody_values {name : String} {lead first more tail : List Kind} {text : String}
    {texts : List String} (hlead : Lead lead) (hfirst : PlainElement first text)
    (hmore : MoreElements PlainElement more texts) (htail : ClosesList tail) :
    ∃ rest, Finds (listBody name) (lead ++ (first ++ (more ++ tail)))
      (.values name (text :: texts)) rest ∧ skipKinds rest = skipKinds tail := by
  obtain ⟨kind, after, hkind, hvalue, hafter, hskip⟩ := hfirst.skipKinds_append (more ++ tail)
  have hcomma : kind ≠ .comma := by rintro rfl; cases hkind
  obtain ⟨result, mid, hcommas, hmid⟩ :=
    finds_lead hlead hskip hcomma (isListEnd_of_isListValue hkind)
  rw [hskip] at hmid
  have hpair := misses_pair_of_plain hvalue hafter hmid (hmore.next htail)
  have htext := finds_listValue hkind hvalue hafter hmid
  obtain ⟨tail', hskip', htail', hrest'⟩ := hmore.skipKinds_append htail
  rw [hskip'] at htext
  obtain ⟨rest, hothers, hrest⟩ := finds_elementsAfter readsElements_listValue hmore htail' text
  refine ⟨rest, ?_, hrest.trans hrest'⟩
  exact hcommas.bind <| hpair.optional.bind <| htext.bind <| hothers.bind <| finds_pure _ _

/-- The body of a list of parameters is found. -/
theorem finds_listBody_pairs {name : String} {lead first more tail : List Kind}
    {p : String × String} {ps : List (String × String)} (hlead : Lead lead)
    (hfirst : PairElement first p) (hmore : MoreElements PairElement more ps)
    (htail : ClosesList tail) :
    ∃ rest, Finds (listBody name) (lead ++ (first ++ (more ++ tail)))
      (.pairs name (p :: ps)) rest ∧ skipKinds rest = skipKinds tail := by
  obtain ⟨front, middle, hkey, hvalue, hskip⟩ := hfirst.skipKinds_append (more ++ tail)
  obtain ⟨text, _, hfront⟩ := hkey.eq_literal_cons
  obtain ⟨result, mid, hcommas, hmid⟩ :=
    finds_lead hlead (hskip.trans (by rw [hfront, List.cons_append])) (by simp) rfl
  have hpair := finds_pair hkey hvalue (hmid.trans hskip)
  obtain ⟨rest, hothers, hrest⟩ := finds_elementsAfter readsElements_pair hmore htail p
  refine ⟨rest, ?_, hrest⟩
  exact hcommas.bind <| hpair.optional.bind <| hothers.bind <| finds_pure _ _

/-- Nothing is found between the brackets of an empty list. -/
theorem misses_listBody {kinds : List Kind} (h : ClosesList kinds) (name : String) :
    Misses (listBody name) kinds := by
  obtain ⟨more, hskip⟩ := h
  have hcomma : Misses comma kinds := misses_comma hskip (by decide)
  have hpair : Misses pair kinds := (misses_key_of_not_literal hskip (by simp)).bind _
  have hvalue : Misses listValue kinds :=
    (finds_ahead hskip isListValue).bind_misses (misses_nothing kinds)
  exact hcomma.optional.bind_misses <| hpair.optional.bind_misses <| hvalue.bind _

/-- A closing bracket behind white space closes a list. -/
theorem closesList_spacing {gaps : List Kind} (h : Spacing gaps) (kinds : List Kind) :
    ClosesList (gaps ++ .bracketClose :: kinds) :=
  ⟨kinds, by rw [skipKinds_spacing h, skipKinds_cons rfl]⟩

/-- What stands between the brackets of a list is found, also if it is nothing. -/
theorem finds_optional_listBody {name : String} {middle : List Kind} {item : Item}
    (h : ListOf name middle item) (kinds : List Kind) :
    ∃ body rest, Finds (optional (listBody name)) (middle ++ .bracketClose :: kinds) body rest ∧
      skipKinds rest = .bracketClose :: kinds ∧ body.getD (.values name []) = item := by
  cases h with
  | none hgaps =>
      have hclose := closesList_spacing hgaps kinds
      refine ⟨none, _, (misses_listBody hclose name).optional, ?_, rfl⟩
      rw [skipKinds_spacing hgaps, skipKinds_cons rfl]
  | values hlead hfirst hmore hgaps =>
      obtain ⟨rest, hfound, hrest⟩ :=
        finds_listBody_values hlead hfirst hmore (closesList_spacing hgaps kinds)
      rw [skipKinds_spacing hgaps, skipKinds_cons rfl] at hrest
      exact ⟨_, rest, by simpa using hfound.optional, hrest, rfl⟩
  | pairs hlead hfirst hmore hgaps =>
      obtain ⟨rest, hfound, hrest⟩ :=
        finds_listBody_pairs hlead hfirst hmore (closesList_spacing hgaps kinds)
      rw [skipKinds_spacing hgaps, skipKinds_cons rfl] at hrest
      exact ⟨_, rest, by simpa using hfound.optional, hrest, rfl⟩

/-- A key with a list is found as the item that the list spells. -/
theorem finds_list {name : String} {front middle kinds kinds' : List Kind} {item : Item}
    (hkey : KeyOf front name) (hlist : ListOf name middle item)
    (hskip : skipKinds kinds = front ++ .bracketOpen :: (middle ++ .bracketClose :: kinds')) :
    Finds list kinds item (skipKinds kinds') := by
  have hname := finds_key hkey hskip
  rw [skipKinds_cons rfl] at hname
  have hopen := finds_trivia (.bracketOpen :: (middle ++ .bracketClose :: kinds'))
  rw [skipKinds_cons rfl] at hopen
  obtain ⟨body, rest, hbody, hrest, hitem⟩ := finds_optional_listBody hlist kinds'
  have hclose := finds_trivia rest
  rw [hrest] at hclose
  refine hname.bind <| hopen.bind <| (finds_expect .bracketOpen _).bind <| hbody.bind ?_
  refine finds_of_ahead hrest rfl ?_
  refine hclose.bind <| (finds_expect .bracketClose _).bind <| (finds_trivia kinds').bind ?_
  rw [hitem]
  exact finds_pure _ _

/-! ## Blocks -/

/-- The title of a block is found, if it has one, up to the opening brace. -/
theorem finds_title (title : Option (List Char)) {gaps : List Kind} (hgaps : Spacing gaps)
    (kinds : List Kind) :
    ∃ mid, Finds literal? (skipKinds (titleKinds title ++ (gaps ++ .braceOpen :: kinds)))
      (title.map String.ofList) mid ∧ skipKinds mid = .braceOpen :: kinds := by
  have hopen : skipKinds (gaps ++ .braceOpen :: kinds) = .braceOpen :: kinds := by
    rw [skipKinds_spacing hgaps, skipKinds_cons rfl]
  cases title with
  | none =>
      refine ⟨.braceOpen :: kinds, ?_, skipKinds_cons rfl kinds⟩
      rw [show titleKinds none = [] from rfl, List.nil_append, hopen]
      exact finds_literal?_none (by simp) kinds
  | some text =>
      refine ⟨_, ?_, hopen⟩
      rw [show titleKinds (some text) = [.literal text] from rfl, List.cons_append,
        List.nil_append, skipKinds_cons rfl]
      exact finds_literal?_some text _

section Block

variable {body : Reader (List Item)} {name : String} {title : Option (List Char)}
  {front gaps inner kinds' : List Kind} {items : List Item}

/-- A block is found if its body is found up to the closing brace. -/
theorem finds_block (hkey : KeyOf front name) (hgaps : Spacing gaps)
    (hskip : skipKinds kinds = front ++ (titleKinds title ++ (gaps ++ .braceOpen :: inner)))
    (hbody : Finds body (skipKinds inner) items rest)
    (hrest : skipKinds rest = .braceClose :: kinds') :
    Finds (block body) kinds (.block name (title.map String.ofList) items) (skipKinds kinds') := by
  obtain ⟨mid, htitle, hmid⟩ := finds_title title hgaps inner
  have hopen := finds_trivia mid
  rw [hmid] at hopen
  have hclose := finds_trivia rest
  rw [hrest] at hclose
  exact (finds_key hkey hskip).bind <| htitle.bind <| hopen.bind <|
    (finds_expect .braceOpen inner).bind <| (finds_trivia inner).bind <| hbody.bind <|
    hclose.bind <| (finds_expect .braceClose kinds').bind <| (finds_trivia kinds').bind <|
    finds_pure _ _

/-- A block whose body is a fault is a fault. -/
theorem faults_block (hkey : KeyOf front name) (hgaps : Spacing gaps)
    (hskip : skipKinds kinds = front ++ (titleKinds title ++ (gaps ++ .braceOpen :: inner)))
    (hbody : Faults body (skipKinds inner)) : Faults (block body) kinds := by
  obtain ⟨mid, htitle, hmid⟩ := finds_title title hgaps inner
  have hopen := finds_trivia mid
  rw [hmid] at hopen
  exact (finds_key hkey hskip).bind_faults <| htitle.bind_faults <| hopen.bind_faults <|
    (finds_expect .braceOpen inner).bind_faults <| (finds_trivia inner).bind_faults <|
    hbody.bind _

/-- No block stands where, after a key and the title that may follow, the brace is missing. -/
theorem misses_block {kind : Kind} {mid mid' more : List Kind} {found : Option String}
    (hkey : Finds key kinds name mid) (htitle : Finds literal? mid found mid')
    (hmid : skipKinds mid' = kind :: more) (hkind : kind ≠ .braceOpen) :
    Misses (block body) kinds := by
  have hopen := finds_trivia mid'
  rw [hmid] at hopen
  exact hkey.bind_misses <| htitle.bind_misses <| hopen.bind_misses <|
    (misses_expect hkind more).bind _

/-- A parameter is not taken for a block: no brace stands behind its value. -/
theorem misses_block_of_value {middle : List Kind} {text : String} {kind : Kind}
    {more : List Kind} (hkey : KeyOf front name) (hvalue : ValueOf middle text)
    (hskip : skipKinds kinds = front ++ (middle ++ kinds'))
    (hnext : skipKinds kinds' = kind :: more) (hkind : kind ≠ .braceOpen) :
    Misses (block body) kinds := by
  have hname := finds_key hkey hskip
  rw [hvalue.skipKinds_append] at hname
  cases hvalue with
  | literal text => exact misses_block hname (finds_literal?_some text kinds') hnext hkind
  | quoted text =>
      exact misses_block hname (finds_literal?_none (by simp) _) (skipKinds_cons rfl _) (by simp)
  | expression text =>
      exact misses_block hname (finds_literal?_none (by simp) _) (skipKinds_cons rfl _) (by simp)

/-! ## Items -/

/-- A parameter is found as an item, after the reader of blocks has missed. -/
theorem finds_item_pair {middle : List Kind} {text : String} {kind : Kind} {more : List Kind}
    (hkey : KeyOf front name) (hvalue : ValueOf middle text)
    (hskip : skipKinds kinds = front ++ (middle ++ kinds'))
    (hnext : skipKinds kinds' = kind :: more) (hkind : kind ≠ .braceOpen) :
    Finds (item body) kinds (.pair name text) kinds' := by
  have hblock : Misses (block body) kinds := misses_block_of_value hkey hvalue hskip hnext hkind
  refine hblock.orElse <| Finds.orElse ((finds_pair hkey hvalue hskip).bind ?_) _
  exact finds_pure _ _

/-- A list is found as an item, after the readers of blocks and of parameters have missed. -/
theorem finds_item_list {middle : List Kind} {found : Item} (hkey : KeyOf front name)
    (hlist : ListOf name middle found)
    (hskip : skipKinds kinds = front ++ .bracketOpen :: (middle ++ .bracketClose :: kinds')) :
    Finds (item body) kinds found (skipKinds kinds') := by
  have hname := finds_key hkey hskip
  rw [skipKinds_cons rfl] at hname
  have hblock : Misses (block body) kinds :=
    misses_block hname (finds_literal?_none (by simp) _) (skipKinds_cons rfl _) (by simp)
  have hpair : Misses pair kinds := hname.bind_misses ((misses_value_bracketOpen _).bind _)
  exact hblock.orElse <| (hpair.bind _).orElse <| (finds_list hkey hlist hskip).orElse _

/-- Items whose keys differ pass the check of a block. -/
theorem finds_distinct {items : List Item} (h : repeatedKey? (items.map Item.key) = none)
    (kinds : List Kind) : Finds (distinct items) kinds items kinds :=
  fun ts deepest hts => ⟨ts, deepest, by rw [distinct, h], hts⟩

/-- Items of which two have the same key do not pass the check of a block. -/
theorem faults_distinct {items : List Item} (h : repeatedKey? (items.map Item.key) ≠ none)
    (kinds : List Kind) : Faults (distinct items) kinds := by
  intro ts deepest _
  obtain ⟨key, hkey⟩ := Option.ne_none_iff_exists'.mp h
  exact ⟨.repeatedKey key, by rw [distinct, hkey]⟩

end Block

end Reader

open Reader

/-- The kinds go on, after white space, with a closing brace or the end of the stream. -/
def ClosesItems (kinds : List Kind) : Prop :=
  ∃ kind more, skipKinds kinds = kind :: more ∧ endsItems kind = true

theorem closesItems_braceClose (kinds : List Kind) : ClosesItems (.braceClose :: kinds) :=
  ⟨.braceClose, kinds, skipKinds_cons rfl kinds, rfl⟩

/-- After an item comes another, or a closing brace, or the end of the stream: no opening brace. -/
theorem Spelled.next {kinds tail : List Kind} {items : List Item} (h : Spelled kinds items)
    (htail : ClosesItems tail) :
    ∃ kind more, skipKinds (kinds ++ tail) = kind :: more ∧ kind ≠ .braceOpen := by
  have hkey : ∀ {front name} (rest : List Kind), KeyOf front name →
      ∃ kind more, skipKinds (front ++ rest ++ tail) = kind :: more ∧ kind ≠ .braceOpen := by
    intro front name rest hkey
    obtain ⟨text, more, rfl⟩ := hkey.eq_literal_cons
    exact ⟨.literal text, _, skipKinds_cons rfl _, by simp⟩
  induction h with
  | nil =>
      obtain ⟨kind, more, hskip, hkind⟩ := htail
      exact ⟨kind, more, hskip, by rintro rfl; cases hkind⟩
  | spacing hgap _ ih => rwa [List.cons_append, skipKinds_gap hgap]
  | pair h => exact hkey _ h
  | list h => exact hkey _ h
  | block _ h => exact hkey _ h

/-- What the parser does in front of a spelling: it finds the items, or stops where a block holds a
key twice. -/
structure Reads (fuel : Nat) (kinds tail : List Kind) (items : List Item) : Prop where
  finds : Item.allKeyed items = true →
    ∃ rest, Finds (Reader.items fuel) kinds items rest ∧ skipKinds rest = skipKinds tail
  faults : Item.allKeyed items = false → Faults (Reader.items fuel) kinds

/-- One item more: it is found and the others are read behind it, or one of them is a fault. -/
theorem Reads.cons {fuel : Nat} {kinds mid tail more : List Kind} {kind : Kind} {item : Item}
    {items : List Item} (hskip : skipKinds kinds = kind :: more) (hkind : endsItems kind = false)
    (hitem : item.keyed = true →
      Finds (Reader.item (do distinct (← Reader.items fuel))) kinds item mid)
    (hfault : item.keyed = false →
      Faults (Reader.item (do distinct (← Reader.items fuel))) kinds)
    (hitems : Reads fuel mid tail items) : Reads (fuel + 1) kinds tail (item :: items) where
  finds hkeyed := by
    rw [Item.allKeyed, Bool.and_eq_true] at hkeyed
    obtain ⟨rest, hfound, hrest⟩ := hitems.finds hkeyed.2
    exact ⟨rest, finds_of_not_ahead hskip hkind <|
      (hitem hkeyed.1).bind <| hfound.bind <| finds_pure _ _, hrest⟩
  faults hkeyed := by
    refine (finds_ahead hskip endsItems).bind_faults ?_
    rw [if_neg (by simp [hkind])]
    cases hfirst : item.keyed with
    | false => exact (hfault hfirst).bind _
    | true =>
        rw [Item.allKeyed, hfirst, Bool.true_and] at hkeyed
        exact (hitem hfirst).bind_faults ((hitems.faults hkeyed).bind _)

namespace Reads

variable {fuel : Nat} {kinds kinds' front gaps body : List Kind} {name : String}
  {title : Option (List Char)} {inner : List Item}

/-- A block is found around items that are read, if no key stands twice in it. -/
theorem finds_item_block (hinner : Reads fuel (skipKinds body) (.braceClose :: kinds') inner)
    (hkey : KeyOf front name) (hgaps : Spacing gaps)
    (hskip : skipKinds kinds = front ++ (titleKinds title ++ (gaps ++ .braceOpen :: body)))
    (hkeyed : (Item.block name (title.map String.ofList) inner).keyed = true) :
    Finds (Reader.item (do distinct (← Reader.items fuel))) kinds
      (.block name (title.map String.ofList) inner) (skipKinds kinds') := by
  rw [Item.keyed, Bool.and_eq_true, Option.isNone_iff_eq_none] at hkeyed
  obtain ⟨rest, hfound, hrest⟩ := hinner.finds hkeyed.2
  rw [skipKinds_cons rfl] at hrest
  exact (finds_block hkey hgaps hskip (hfound.bind (finds_distinct hkeyed.1 rest)) hrest).orElse _

/-- A block in which a key stands twice, be it its own or one further inside, is a fault. -/
theorem faults_item_block (hinner : Reads fuel (skipKinds body) (.braceClose :: kinds') inner)
    (hkey : KeyOf front name) (hgaps : Spacing gaps)
    (hskip : skipKinds kinds = front ++ (titleKinds title ++ (gaps ++ .braceOpen :: body)))
    (hkeyed : (Item.block name (title.map String.ofList) inner).keyed = false) :
    Faults (Reader.item (do distinct (← Reader.items fuel))) kinds := by
  refine (faults_block hkey hgaps hskip ?_).orElse _
  cases hall : Item.allKeyed inner with
  | false => exact (hinner.faults hall).bind _
  | true =>
      -- Every block inside is in order, so it is the block's own keys that repeat.
      obtain ⟨rest, hfound, _⟩ := hinner.finds hall
      refine hfound.bind_faults (faults_distinct ?_ rest)
      simpa [Item.keyed, hall, Option.isSome_iff_ne_none] using hkeyed

end Reads

/-- **THE PARSER READS EVERY SPELLING**, whatever white space stands in front of it. -/
theorem Spelled.reads {spelling tail : List Kind} {items : List Item} (h : Spelled spelling items)
    (htail : ClosesItems tail) (fuel : Nat) (kinds : List Kind)
    (hskip : skipKinds kinds = skipKinds (spelling ++ tail))
    (hfuel : (skipKinds kinds).length < fuel) : Reads fuel kinds tail items := by
  -- By induction on the spelling.  Each item takes one unit of fuel and at least one token, so that
  -- the bound `hfuel` is passed on to the items behind it and to those of a block.
  induction h generalizing tail fuel kinds with
  | nil =>
      obtain ⟨fuel, rfl⟩ := Nat.exists_eq_succ_of_ne_zero (Nat.ne_zero_of_lt hfuel)
      obtain ⟨kind, more, htail, hkind⟩ := htail
      rw [List.nil_append] at hskip
      refine ⟨fun _ => ⟨kinds, ?_, hskip⟩, by simp [Item.allKeyed]⟩
      exact finds_of_ahead (hskip.trans htail) hkind (finds_pure _ _)
  | spacing hgap _ ih =>
      rw [List.cons_append, skipKinds_gap hgap] at hskip
      exact ih htail fuel kinds hskip hfuel
  | pair hkey hvalue hrest ih =>
      rename_i front middle others name text items
      obtain ⟨fuel, rfl⟩ := Nat.exists_eq_succ_of_ne_zero (Nat.ne_zero_of_lt hfuel)
      rw [List.append_assoc, List.append_assoc, hkey.skipKinds_append] at hskip
      obtain ⟨kind, more, hnext, hkind⟩ := hrest.next htail
      obtain ⟨key, front', hfront⟩ := hkey.eq_literal_cons
      refine Reads.cons (hskip.trans (by rw [hfront]; rfl)) rfl
        (fun _ => finds_item_pair hkey hvalue hskip hnext hkind) (by simp [Item.keyed])
        (ih htail fuel (others ++ tail) rfl ?_)
      have hle := length_skipKinds_le (others ++ tail)
      rw [hskip, hfront] at hfuel
      simp only [List.length_append, List.length_cons] at hfuel hle
      omega
  | list hkey hlist hrest ih =>
      rename_i front middle others name item items
      obtain ⟨fuel, rfl⟩ := Nat.exists_eq_succ_of_ne_zero (Nat.ne_zero_of_lt hfuel)
      rw [List.append_assoc, hkey.skipKinds_append, List.cons_append, List.append_assoc,
        List.cons_append] at hskip
      obtain ⟨key, front', hfront⟩ := hkey.eq_literal_cons
      have hkeyed : item.keyed = true := by cases hlist <;> rfl
      refine Reads.cons (hskip.trans (by rw [hfront]; rfl)) rfl
        (fun _ => finds_item_list hkey hlist hskip) (by simp [hkeyed])
        (ih htail fuel _ (skipKinds_skipKinds _) ?_)
      have hle := length_skipKinds_le (others ++ tail)
      rw [skipKinds_skipKinds]
      rw [hskip] at hfuel
      simp only [List.length_append, List.length_cons] at hfuel hle
      omega
  | block title hkey hgaps hbody hrest ihbody ih =>
      rename_i front gaps body others name inner items
      obtain ⟨fuel, rfl⟩ := Nat.exists_eq_succ_of_ne_zero (Nat.ne_zero_of_lt hfuel)
      rw [List.append_assoc, hkey.skipKinds_append, List.append_assoc, List.append_assoc,
        List.cons_append, List.append_assoc, List.cons_append] at hskip
      obtain ⟨key, front', hfront⟩ := hkey.eq_literal_cons
      have hle := length_skipKinds_le (others ++ tail)
      have hle' := length_skipKinds_le (body ++ .braceClose :: (others ++ tail))
      rw [hskip] at hfuel
      simp only [List.length_append, List.length_cons] at hfuel hle hle'
      -- The body of a block is a spelling of its own, closed by the brace.
      have hinner : Reads fuel (skipKinds (body ++ .braceClose :: (others ++ tail)))
          (.braceClose :: (others ++ tail)) inner :=
        ihbody (closesItems_braceClose _) fuel _ (skipKinds_skipKinds _)
          (by rw [skipKinds_skipKinds]; omega)
      exact Reads.cons (hskip.trans (by rw [hfront]; rfl)) rfl
        (hinner.finds_item_block hkey hgaps hskip) (hinner.faults_item_block hkey hgaps hskip)
        (ih htail fuel (skipKinds (others ++ tail)) (skipKinds_skipKinds _)
          (by rw [skipKinds_skipKinds]; omega))

end LookmlProject.Lookml
