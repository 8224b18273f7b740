import LookmlProject.Proofs.Remarking
import Mathlib.Data.List.DropRight

/-! # The references in a SQL text

    The references of a text are read in one pass that remembers whether something
    is open.  `Refers` says without the pass what a reference is: an opening, a name
    and the mark in front of the next closing brace, where nothing has been opened
    since the closing brace before.  `search` is the search for a pattern that takes
    the longest name it can and goes on behind each match.  The route:

    * up to the next closing brace all depends on what stands behind the first
      opening (`referencesFrom_append_closing`, `search_append_closing`), and without
      a closing brace nothing is found;
    * so the pass finds what the search finds, in its order (`search_eq`), and finds
      exactly what is a reference (`mem_referencesFrom_iff`), by induction from one
      closing brace to the next.

    A view then has one edge from each view that its SQL refers to. -/

namespace LookmlProject.Graph

open Value

/-! ## What is a reference -/

/-- What opens a reference. -/
def opening : List Char := ['$', '\x7b']

/-- The part of a text behind its last closing brace, all of it if there is none. -/
def sinceClosing (text : List Char) : List Char := text.rtakeWhile (· ≠ '\x7d')

/-- A text refers to a name: the name stands between an opening and the mark with a closing brace
behind it, and nothing is opened between the closing brace before and that opening. -/
def Refers (sql name : String) : Prop :=
  name ≠ "" ∧ '\x7d' ∉ name.toList ∧ ∃ before after : String,
    sql = before ++ "$\x7b" ++ name ++ ".SQL_TABLE_NAME\x7d" ++ after ∧
      ¬ opening <:+: sinceClosing before.toList

/-- Every opening is closed before the next one. -/
def ClosedInTurn (sql : String) : Prop :=
  ∀ before between after : String, sql = before ++ "$\x7b" ++ between ++ "$\x7b" ++ after →
    '\x7d' ∈ between.toList

/-- Without a closing brace the whole text counts. -/
theorem sinceClosing_of_not_mem {text : List Char} (h : '\x7d' ∉ text) :
    sinceClosing text = text := by
  rw [sinceClosing, List.rtakeWhile_eq_self_iff]
  intro c hc
  exact decide_eq_true fun heq => h (heq ▸ hc)

/-- What stands in front of a closing brace does not count. -/
theorem sinceClosing_append_closing (before text : List Char) :
    sinceClosing (before ++ '\x7d' :: text) = sinceClosing text := by
  rw [sinceClosing, sinceClosing, List.rtakeWhile, List.rtakeWhile, List.reverse_append,
    List.reverse_cons, List.append_assoc, List.singleton_append, List.takeWhile_append]
  split
  · next hall =>
      rw [List.takeWhile_cons_of_neg (by simp), List.append_nil,
        (List.takeWhile_prefix _).eq_of_length hall]
  · rfl

/-! ## From one closing brace to the next -/

/-- What stands behind the first opening of a text. -/
def opened : List Char → Option (List Char)
  | '$' :: '\x7b' :: rest => some rest
  | _ :: rest => opened rest
  | [] => none

theorem opening_prefix_iff (text : List Char) :
    opening <+: text ↔ ∃ rest, text = '$' :: '\x7b' :: rest := by
  constructor
  · rintro ⟨rest, rfl⟩
    exact ⟨rest, rfl⟩
  · rintro ⟨rest, rfl⟩
    exact ⟨rest, rfl⟩

/-- A character that starts no opening is passed over. -/
theorem opened_cons {c : Char} {rest : List Char} (h : ¬ opening <+: c :: rest) :
    opened (c :: rest) = opened rest := by
  rw [opened]
  rintro tail rfl rfl
  exact h ⟨tail, rfl⟩

/-- An opening does not reach into what follows, unless that starts with a brace. -/
theorem prefix_of_prefix_append {c : Char} {front behind : List Char}
    (h : opening <+: c :: (front ++ behind)) (hbehind : behind.head? ≠ some '\x7b') :
    opening <+: c :: front := by
  obtain ⟨tail, htail⟩ := (opening_prefix_iff _).mp h
  cases front with
  | nil =>
      cases htail
      exact absurd rfl hbehind
  | cons d front =>
      cases htail
      exact ⟨front, rfl⟩

/-- The first opening is the one with none before it. -/
theorem opened_append {before rest : List Char} (h : ¬ opening <:+: before) :
    opened (before ++ (opening ++ rest)) = some rest := by
  induction before with
  | nil => rfl
  | cons c before ih =>
      have hfirst : ¬ opening <+: c :: (before ++ (opening ++ rest)) := fun hprefix =>
        h (prefix_of_prefix_append hprefix (by simp [opening])).isInfix
      rw [List.cons_append, opened_cons hfirst]
      exact ih fun hinside => h (hinside.trans (List.suffix_cons c before).isInfix)

/-- The text that is opened stands behind an opening, and none comes before that one. -/
theorem eq_append_of_opened {text rest : List Char} (h : opened text = some rest) :
    ∃ before, text = before ++ (opening ++ rest) ∧ ¬ opening <:+: before := by
  fun_induction opened text with
  | case1 tail =>
      cases h
      exact ⟨[], rfl, by simp [opening]⟩
  | case2 c tail hstart ih =>
      obtain ⟨before, rfl, hbefore⟩ := ih h
      refine ⟨c :: before, rfl, fun hinside => ?_⟩
      rcases List.infix_cons_iff.mp hinside with hprefix | hinside
      · obtain ⟨more, hmore⟩ := hprefix
        obtain ⟨rfl, rfl⟩ := List.cons.inj hmore
        exact hstart (more ++ (opening ++ rest)) rfl rfl
      · exact hbefore hinside
  | case3 => cases h

/-- A text between braces names a reference if it is the mark with something in front of it. -/
theorem referenceName?_eq_some_iff (text name : List Char) :
    referenceName? text = some name ↔ text = name ++ tableMark ∧ name ≠ [] := by
  rw [referenceName?]
  constructor
  · intro h
    split at h
    swap
    · cases h
    next hmark =>
    obtain ⟨front, rfl⟩ := List.isSuffixOf_iff_suffix.mp hmark
    rw [List.length_append, Nat.add_sub_cancel, List.take_left] at h
    split at h
    · cases h
    · next hfront =>
        cases h
        exact ⟨rfl, hfront⟩
  · rintro ⟨rfl, hname⟩
    rw [if_pos (List.isSuffixOf_iff_suffix.mpr (List.suffix_append _ _)), List.length_append,
      Nat.add_sub_cancel, List.take_left]
    cases name with
    | nil => exact absurd rfl hname
    | cons c name => rfl

/-- The name of the reference that a closing brace behind a text ends. -/
def endedBy (segment : List Char) : Option (List Char) := (opened segment).bind referenceName?

/-- A closing brace ends a reference if the first opening since the brace before has a name and the
mark behind it. -/
theorem endedBy_eq_some_iff (segment name : List Char) :
    endedBy segment = some name ↔ name ≠ [] ∧ ∃ before,
      segment = before ++ (opening ++ (name ++ tableMark)) ∧ ¬ opening <:+: before := by
  rw [endedBy, Option.bind_eq_some_iff]
  constructor
  · rintro ⟨rest, hrest, hname⟩
    obtain ⟨rfl, hne⟩ := (referenceName?_eq_some_iff rest name).mp hname
    exact ⟨hne, eq_append_of_opened hrest⟩
  · rintro ⟨hne, before, rfl, hbefore⟩
    exact ⟨_, opened_append hbefore, (referenceName?_eq_some_iff _ name).mpr ⟨rfl, hne⟩⟩

/-! ## The pass -/

/-- When something is open, all characters up to the next closing brace belong to it. -/
theorem referencesFrom_some_append (segment rest : List Char) (h : '\x7d' ∉ segment) :
    ∀ text : List Char, referencesFrom (some text) (segment ++ '\x7d' :: rest) =
      (referenceName? (text.reverse ++ segment)).toList ++ referencesFrom none rest := by
  induction segment with
  | nil =>
      intro text
      rw [List.nil_append, List.append_nil, referencesFrom]
      cases referenceName? text.reverse with
      | none => rfl
      | some name => rfl
  | cons c segment ih =>
      intro text
      obtain ⟨hc, hsegment⟩ := not_or.mp (mt List.mem_cons.mpr h)
      rw [List.cons_append, referencesFrom, ih hsegment, List.reverse_cons, List.append_assoc,
        List.singleton_append]
      exact fun heq => hc heq.symm

/-- **UP TO A CLOSING BRACE** the pass finds at most one reference; nothing is open behind it. -/
theorem referencesFrom_append_closing (segment rest : List Char) (h : '\x7d' ∉ segment) :
    referencesFrom none (segment ++ '\x7d' :: rest) =
      (endedBy segment).toList ++ referencesFrom none rest := by
  rw [endedBy]
  fun_induction opened segment with
  | case1 tail =>
      have htail : '\x7d' ∉ tail := fun hmem =>
        h (List.mem_cons_of_mem _ (List.mem_cons_of_mem _ hmem))
      rw [List.cons_append, List.cons_append, referencesFrom,
        referencesFrom_some_append tail rest htail]
      rfl
  | case2 c tail hstart ih =>
      rw [List.cons_append, referencesFrom, ih fun hmem => h (List.mem_cons_of_mem _ hmem)]
      -- A dollar sign right before the closing brace opens nothing.
      rintro more rfl heq
      have hprefix : opening <+: '$' :: (tail ++ '\x7d' :: rest) := ⟨more, by rw [heq]; rfl⟩
      obtain ⟨more', hmore'⟩ :=
        (opening_prefix_iff _).mp (prefix_of_prefix_append hprefix (by simp))
      exact hstart more' rfl (List.cons.inj hmore').2
  | case3 =>
      rw [List.nil_append, referencesFrom]
      · rfl
      · exact fun _ heq => nomatch heq

/-- Without a closing brace nothing is found. -/
theorem referencesFrom_of_not_mem (state : Option (List Char)) (text : List Char)
    (h : '\x7d' ∉ text) : referencesFrom state text = [] := by
  fun_induction referencesFrom state text with
  | case1 rest ih =>
      exact ih fun hmem => h (List.mem_cons_of_mem _ (List.mem_cons_of_mem _ hmem))
  | case2 c rest hstart ih => exact ih fun hmem => h (List.mem_cons_of_mem _ hmem)
  | case3 text rest name hname ih => exact absurd List.mem_cons_self h
  | case4 text rest hname ih => exact absurd List.mem_cons_self h
  | case5 text c rest hc ih => exact ih fun hmem => h (List.mem_cons_of_mem _ hmem)
  | case6 state => rfl

/-- **THE PASS FINDS THE REFERENCES** and nothing else.  By induction from one closing brace to the
next: what stands in front of the first one is closed by it. -/
theorem mem_referencesFrom_iff (name text : List Char) :
    name ∈ referencesFrom none text ↔ name ≠ [] ∧ '\x7d' ∉ name ∧ ∃ before after,
      text = before ++ (opening ++ (name ++ (tableMark ++ '\x7d' :: after))) ∧
        ¬ opening <:+: sinceClosing before := by
  induction hlength : text.length using Nat.strong_induction_on generalizing text with
  | _ length ih =>
  subst hlength
  constructor
  · intro hmem
    by_cases hclosing : '\x7d' ∈ text
    swap
    · rw [referencesFrom_of_not_mem none text hclosing] at hmem
      cases hmem
    obtain ⟨segment, rest, rfl, hsegment⟩ := List.eq_append_cons_of_mem hclosing
    rw [referencesFrom_append_closing segment rest hsegment, List.mem_append, Option.mem_toList,
      endedBy_eq_some_iff] at hmem
    -- The reference is ended by the first closing brace, or found behind it.
    rcases hmem with ⟨hname, before, rfl, hbefore⟩ | hrest
    · have hfree : '\x7d' ∉ before ∧ '\x7d' ∉ name := by
        simp only [List.mem_append, not_or] at hsegment
        exact ⟨hsegment.1, hsegment.2.2.1⟩
      refine ⟨hname, hfree.2, before, rest, by simp only [List.append_assoc], ?_⟩
      rwa [sinceClosing_of_not_mem hfree.1]
    · have hshorter : rest.length < (segment ++ '\x7d' :: rest).length := by simp; omega
      obtain ⟨hname, hfree, before, after, rfl, hbefore⟩ := (ih _ hshorter rest rfl).mp hrest
      refine ⟨hname, hfree, segment ++ '\x7d' :: before, after, by simp, ?_⟩
      rwa [sinceClosing_append_closing]
  · rintro ⟨hname, hfree, before, after, rfl, hbefore⟩
    -- Either a closing brace stands in front of the reference, or the first one is its own.
    by_cases hclosing : '\x7d' ∈ before
    · obtain ⟨segment, more, rfl, hsegment⟩ := List.eq_append_cons_of_mem hclosing
      rw [List.append_assoc, List.cons_append, referencesFrom_append_closing segment _ hsegment]
      rw [sinceClosing_append_closing] at hbefore
      exact List.mem_append_right _ ((ih _ (by simp; omega) _ rfl).mpr
        ⟨hname, hfree, more, after, rfl, hbefore⟩)
    · rw [sinceClosing_of_not_mem hclosing] at hbefore
      have hsegment : '\x7d' ∉ before ++ (opening ++ (name ++ tableMark)) := by
        simp only [List.mem_append, not_or]
        exact ⟨hclosing, by decide, hfree, by decide⟩
      rw [show before ++ (opening ++ (name ++ (tableMark ++ '\x7d' :: after))) =
        before ++ (opening ++ (name ++ tableMark)) ++ '\x7d' :: after by
          simp only [List.append_assoc],
        referencesFrom_append_closing _ after hsegment, List.mem_append, Option.mem_toList,
        endedBy_eq_some_iff]
      exact .inl ⟨hname, before, rfl, hbefore⟩

/-! ## The search for a pattern -/

/-- The name in a match of the pattern at the front of a text: behind an opening, as many characters
other than a closing brace as leave the mark and a closing brace behind them, but at least one. -/
def matchName? : List Char → Option (List Char)
  | '$' :: '\x7b' :: body =>
    let longest := (body.takeWhile (· ≠ '\x7d')).length
    ((List.range longest).reverse.find? fun more =>
      (tableMark ++ ['\x7d']).isPrefixOf (body.drop (more + 1))).map fun more =>
        body.take (more + 1)
  | _ => none

/-- The names in the matches of the pattern, from the left, each behind the one before: where there
is a match, its other characters are passed over. -/
def search : Nat → List Char → List (List Char)
  | _, [] => []
  | passed + 1, _ :: rest => search passed rest
  | 0, c :: rest =>
    match matchName? (c :: rest) with
    | some name => name :: search (1 + name.length + tableMark.length + 1) rest
    | none => search 0 rest

theorem takeWhile_append_closing {segment : List Char} (h : '\x7d' ∉ segment) (rest : List Char) :
    (segment ++ '\x7d' :: rest).takeWhile (· ≠ '\x7d') = segment := by
  have hfree : ∀ c ∈ segment, decide (c ≠ '\x7d') = true := fun c hc =>
    decide_eq_true fun heq => h (heq ▸ hc)
  rw [List.takeWhile_append_of_pos hfree, List.takeWhile_cons_of_neg (by simp), List.append_nil]

/-- Of the names that a match tries only the one in front of the mark will do: the mark has no
closing brace, so the brace behind it is the next one. -/
theorem isPrefixOf_drop_iff {segment : List Char} (h : '\x7d' ∉ segment) (rest : List Char)
    {count : Nat} (hcount : count ≤ segment.length) :
    (tableMark ++ ['\x7d']).isPrefixOf ((segment ++ '\x7d' :: rest).drop count) = true ↔
      segment.drop count = tableMark := by
  rw [List.isPrefixOf_iff_prefix, List.drop_append_of_le_length hcount]
  constructor
  · rintro ⟨tail, htail⟩
    rw [List.append_assoc, List.singleton_append] at htail
    have hfirst := congrArg (List.takeWhile (· ≠ '\x7d')) htail
    rwa [takeWhile_append_closing (by decide),
      takeWhile_append_closing fun hmem => h (List.mem_of_mem_drop hmem), eq_comm] at hfirst
  · intro hdrop
    rw [hdrop]
    exact ⟨rest, by simp⟩

/-- **A MATCH** behind an opening is the reference that the next closing brace ends. -/
theorem matchName?_append_closing {segment : List Char} (h : '\x7d' ∉ segment) (rest : List Char) :
    matchName? (opening ++ (segment ++ '\x7d' :: rest)) = referenceName? segment := by
  show matchName? ('$' :: '\x7b' :: (segment ++ '\x7d' :: rest)) = _
  rw [matchName?, takeWhile_append_closing h]
  -- Both sides name the text in front of the mark, so they give the same names.
  refine Option.ext fun name => ?_
  rw [referenceName?_eq_some_iff, Option.map_eq_some_iff]
  constructor
  · rintro ⟨more, hfind, rfl⟩
    have hmore : more + 1 ≤ segment.length :=
      List.mem_range.mp (List.mem_reverse.mp (List.mem_of_find?_eq_some hfind))
    have hprefix := List.find?_some hfind
    have hmark := (isPrefixOf_drop_iff h rest hmore).mp hprefix
    rw [List.take_append_of_le_length hmore]
    refine ⟨by rw [← hmark, List.take_append_drop], fun hnil => ?_⟩
    have hlength := congrArg List.length hnil
    rw [List.length_take, List.length_nil] at hlength
    omega
  · rintro ⟨rfl, hname⟩
    obtain ⟨more, hmore⟩ := Nat.exists_eq_add_one.mpr (List.length_pos_iff.mpr hname)
    -- There is a length that will do, and any that will do is the length of the name.
    have hfound : ((List.range (name ++ tableMark).length).reverse.find? fun more =>
        (tableMark ++ ['\x7d']).isPrefixOf
          (((name ++ tableMark) ++ '\x7d' :: rest).drop (more + 1))).isSome = true := by
      rw [List.find?_isSome]
      refine ⟨more, by simp; omega, (isPrefixOf_drop_iff h rest (by simp; omega)).mpr ?_⟩
      rw [← hmore, List.drop_left]
    obtain ⟨other, hother⟩ := Option.isSome_iff_exists.mp hfound
    have hbound : other + 1 ≤ (name ++ tableMark).length :=
      List.mem_range.mp (List.mem_reverse.mp (List.mem_of_find?_eq_some hother))
    have hprefix := List.find?_some hother
    have hdrop := congrArg List.length ((isPrefixOf_drop_iff h rest hbound).mp hprefix)
    rw [List.length_drop, List.length_append] at hdrop
    rw [List.length_append] at hbound
    refine ⟨other, hother, ?_⟩
    rw [show other + 1 = name.length by omega, List.append_assoc, List.take_left]

/-- Without a closing brace there is no match. -/
theorem matchName?_of_not_mem {text : List Char} (h : '\x7d' ∉ text) : matchName? text = none := by
  rw [matchName?.eq_def]
  split
  · next body =>
      rw [Option.map_eq_none_iff, List.find?_eq_none]
      intro more _ hprefix
      refine h (List.mem_cons_of_mem _ (List.mem_cons_of_mem _ ?_))
      exact List.mem_of_mem_drop ((List.isPrefixOf_iff_prefix.mp hprefix).subset (by simp))
  · rfl

/-- A match starts with an opening. -/
theorem matchName?_of_not_opening {text : List Char} (h : ¬ opening <+: text) :
    matchName? text = none := by
  rw [matchName?.eq_def]
  split
  · next body => exact absurd ⟨body, rfl⟩ h
  · rfl

/-- Where there is no match, the search goes on with the next character. -/
theorem search_of_no_match {c : Char} {rest : List Char} (h : matchName? (c :: rest) = none) :
    search 0 (c :: rest) = search 0 rest := by
  rw [search, h]

/-- The characters of a match are passed over. -/
theorem search_length_append (passed rest : List Char) :
    search passed.length (passed ++ rest) = search 0 rest := by
  induction passed with
  | nil => rfl
  | cons c passed ih => rw [List.length_cons, List.cons_append, search, ih]

/-- Behind a match the search goes on. -/
theorem search_of_match {name : List Char} (h : '\x7d' ∉ name ++ tableMark) (hname : name ≠ [])
    (rest : List Char) :
    search 0 (opening ++ (name ++ tableMark ++ '\x7d' :: rest)) = name :: search 0 rest := by
  have hmatch : matchName? ('$' :: '\x7b' :: (name ++ tableMark ++ '\x7d' :: rest)) = some name :=
    (matchName?_append_closing h rest).trans
      ((referenceName?_eq_some_iff _ name).mpr ⟨rfl, hname⟩)
  have hpassed := search_length_append ('\x7b' :: (name ++ tableMark ++ ['\x7d'])) rest
  have hlength : ('\x7b' :: (name ++ tableMark ++ ['\x7d'])).length =
      1 + name.length + tableMark.length + 1 := by
    simp only [List.length_cons, List.length_append, List.length_nil]
    omega
  show search 0 ('$' :: '\x7b' :: (name ++ tableMark ++ '\x7d' :: rest)) = _
  rw [search, hmatch, ← hpassed, hlength, List.cons_append, List.append_assoc _ ['\x7d'],
    List.singleton_append]

/-- The search finds nothing without a closing brace, either. -/
theorem search_of_not_mem (text : List Char) (h : '\x7d' ∉ text) : search 0 text = [] := by
  induction text with
  | nil => rfl
  | cons c rest ih =>
      rw [search_of_no_match (matchName?_of_not_mem h)]
      exact ih fun hmem => h (List.mem_cons_of_mem _ hmem)

/-- Where there is no reference behind an opening, there is none behind a later one: it would be the
end of one here. -/
theorem endedBy_of_no_reference {body : List Char} (h : referenceName? body = none) :
    endedBy ('\x7b' :: body) = none := by
  refine Option.eq_none_iff_forall_ne_some.mpr fun name hended => ?_
  obtain ⟨_, before, hbefore, _⟩ := (endedBy_eq_some_iff _ name).mp hended
  cases before with
  | nil => cases hbefore
  | cons d before =>
      obtain ⟨_, rfl⟩ := List.cons.inj hbefore
      have hsome : referenceName? (before ++ (opening ++ (name ++ tableMark))) =
          some (before ++ (opening ++ name)) :=
        (referenceName?_eq_some_iff _ _).mpr
          ⟨by simp only [List.append_assoc], by simp [opening]⟩
      cases hsome.symm.trans h

/-- **UP TO A CLOSING BRACE** the search finds at most one reference, too. -/
theorem search_append_closing (segment rest : List Char) (h : '\x7d' ∉ segment) :
    search 0 (segment ++ '\x7d' :: rest) = (endedBy segment).toList ++ search 0 rest := by
  induction segment with
  | nil => exact search_of_no_match (matchName?_of_not_opening (by simp [opening]))
  | cons c tail ih =>
      have htail : '\x7d' ∉ tail := fun hmem => h (List.mem_cons_of_mem _ hmem)
      by_cases hprefix : opening <+: c :: tail
      · obtain ⟨body, hbody⟩ := (opening_prefix_iff _).mp hprefix
        cases hbody
        have hfree : '\x7d' ∉ body := fun hmem => htail (List.mem_cons_of_mem _ hmem)
        have hended : endedBy ('$' :: '\x7b' :: body) = referenceName? body := rfl
        rw [hended]
        cases hreference : referenceName? body with
        | some name =>
            obtain ⟨rfl, hname⟩ := (referenceName?_eq_some_iff body name).mp hreference
            exact search_of_match hfree hname rest
        -- The search goes on inside the text that failed, where the pass has something open.
        | none =>
            have hnone := (matchName?_append_closing hfree rest).trans hreference
            rw [endedBy_of_no_reference hreference] at ih
            exact (search_of_no_match hnone).trans (ih htail)
      · have hnone : matchName? (c :: (tail ++ '\x7d' :: rest)) = none :=
          matchName?_of_not_opening fun h' => hprefix (prefix_of_prefix_append h' (by simp))
        have hended : endedBy (c :: tail) = endedBy tail := by
          rw [endedBy, endedBy, opened_cons hprefix]
        rw [List.cons_append, search_of_no_match hnone, hended]
        exact ih htail

/-- **THE PASS IS THE SEARCH**: it finds the names in the matches of the pattern, in their order. -/
theorem search_eq (text : List Char) : search 0 text = referencesFrom none text := by
  induction hlength : text.length using Nat.strong_induction_on generalizing text with
  | _ length ih =>
  subst hlength
  by_cases hclosing : '\x7d' ∈ text
  · obtain ⟨segment, rest, rfl, hsegment⟩ := List.eq_append_cons_of_mem hclosing
    have hshorter : rest.length < (segment ++ '\x7d' :: rest).length := by simp; omega
    rw [search_append_closing segment rest hsegment,
      referencesFrom_append_closing segment rest hsegment, ih _ hshorter rest rfl]
  · rw [search_of_not_mem text hclosing, referencesFrom_of_not_mem none text hclosing]

/-! ## The references of a text -/

/-- A list without its repetitions has none. -/
theorem nodup_eraseDups {α : Type} [BEq α] [LawfulBEq α] (items : List α) :
    items.eraseDups.Nodup := by
  induction hlength : items.length using Nat.strong_induction_on generalizing items with
  | _ length ih =>
  subst hlength
  cases items with
  | nil => exact List.nodup_nil
  | cons a rest =>
      have hshorter : (rest.filter fun b => !b == a).length < (a :: rest).length :=
        Nat.lt_succ_of_le (List.length_filter_le _ rest)
      rw [List.eraseDups_cons, List.nodup_cons]
      refine ⟨fun hmem => ?_, ih _ hshorter _ rfl⟩
      -- What equals the first element was taken out of the others.
      have hother := (List.mem_filter.mp (List.mem_eraseDups.mp hmem)).2
      simp at hother

theorem toList_opening : "$\x7b".toList = opening := rfl

/-- The characters of a text with a reference in it. -/
theorem toList_reference (before name after : String) :
    (before ++ "$\x7b" ++ name ++ ".SQL_TABLE_NAME\x7d" ++ after).toList =
      before.toList ++ (opening ++ (name.toList ++ (tableMark ++ '\x7d' :: after.toList))) := by
  have hmark : ".SQL_TABLE_NAME\x7d".toList = tableMark ++ ['\x7d'] := rfl
  simp only [String.toList_append, toList_opening, hmark, List.append_assoc, List.singleton_append]

/-- The references of a text are the names that it refers to. -/
theorem mem_references_iff (sql name : String) : name ∈ references sql ↔ Refers sql name := by
  have hmem : name ∈ references sql ↔ name.toList ∈ referencesFrom none sql.toList := by
    rw [references, List.mem_eraseDups, List.mem_map]
    constructor
    · rintro ⟨chars, hchars, rfl⟩
      rwa [String.toList_ofList]
    · exact fun hchars => ⟨_, hchars, String.ofList_toList⟩
  have hname : name.toList ≠ [] ↔ name ≠ "" := by
    rw [Ne, Ne, ← String.toList_inj, String.toList_empty]
  rw [hmem, mem_referencesFrom_iff, Refers, hname]
  refine and_congr_right fun _ => and_congr_right fun _ => ?_
  constructor
  · rintro ⟨before, after, hsql, hbefore⟩
    refine ⟨String.ofList before, String.ofList after, String.toList_inj.mp ?_, ?_⟩
    · rw [toList_reference, String.toList_ofList, String.toList_ofList, hsql]
    · rwa [String.toList_ofList]
  · rintro ⟨before, after, rfl, hbefore⟩
    exact ⟨before.toList, after.toList, toList_reference before name after, hbefore⟩

/-- Where every opening is closed before the next one, none is open at the start of a reference. -/
theorem ClosedInTurn.refers {sql : String} (h : ClosedInTurn sql) {before name after : String}
    (hsql : sql = before ++ "$\x7b" ++ name ++ ".SQL_TABLE_NAME\x7d" ++ after) (hname : name ≠ "")
    (hfree : '\x7d' ∉ name.toList) : Refers sql name := by
  refine ⟨hname, hfree, before, after, hsql, ?_⟩
  rintro ⟨front, between, hinside⟩
  have hsince : '\x7d' ∉ sinceClosing before.toList := by
    intro hmem
    simpa using List.mem_rtakeWhile_imp hmem
  obtain ⟨first, hfirst⟩ : sinceClosing before.toList <:+ before.toList :=
    List.rtakeWhile_suffix _ _
  have hbefore : before.toList = first ++ (front ++ (opening ++ between)) := by
    rw [← hfirst, ← hinside, List.append_assoc]
  refine hsince (hinside ▸ List.mem_append_right _ ?_)
  -- An opening since the last closing brace would be closed before the reference, by a later one.
  have hclosed := h (String.ofList (first ++ front)) (String.ofList between)
    (name ++ ".SQL_TABLE_NAME\x7d" ++ after) (String.toList_inj.mp ?_)
  · rwa [String.toList_ofList] at hclosed
  · rw [hsql]
    simp only [String.toList_append, String.toList_ofList, toList_opening, hbefore,
      List.append_assoc]

/-! ## The edges of a view -/

/-- What a view adds with its SQL, where the views that it refers to come in the given order. -/
def linked (target : String) (parents : List String) : List (Addition String) :=
  .node target .view :: parents.flatMap (viewBefore target)

/-- What is added for a view with its SQL: the view, and an edge for each reference. -/
theorem declareView_eq {fields table : Fields} {name sql : String}
    (hname : Fields.get? fields "name" = some (.text name))
    (htable : Fields.get? fields "derived_table" = some (.record table))
    (hsql : Fields.get? table "sql" = some (.text sql))
    (hextends : Fields.get? fields "extends" = none) :
    (declareView (.record fields) : Trail (Addition String)) =
      .of (linked (viewNode name) (references sql)) := by
  have hparents : underKey (.record fields) "extends"
      (fun parents => eachName parents (viewBefore (viewNode name))) .nil =
        (.nil : Trail (Addition String)) :=
    underKey_absent (by rw [Value.has, Value.holds, Fields.has, hextends]; rfl)
  have htitle : (Value.record fields).lookup "name" = .ok (.text name) := by
    rw [Value.lookup, hname]
  have hderived : derivedSql (.record fields) = .ok (.text sql) := by
    rw [derivedSql, htable]
    simp [hsql]
  have hadded : (if (Value.text sql).truthy then
      Trail.need (Value.text sql).asText fun text =>
        .of ((references text).flatMap (viewBefore (viewNode name)))
      else .nil) = (.of ((references sql).flatMap (viewBefore (viewNode name))) :
        Trail (Addition String)) := by
    by_cases hempty : sql = ""
    · subst hempty
      rfl
    · rw [if_pos (by simpa [Value.truthy] using hempty)]
      rfl
  rw [declareView, htitle]
  show Trail.of [Addition.node (viewNode name) .view] ++
    Trail.need (derivedSql (.record fields)) _ ++ _ = _
  rw [hparents, hderived]
  show Trail.of [Addition.node (viewNode name) .view] ++
    (if (Value.text sql).truthy then _ else _) ++ _ = _
  rw [hadded]
  show Trail.of ([Addition.node (viewNode name) .view] ++ _ ++ []) = _
  rw [List.append_nil]
  rfl

/-- The edges that come with the references, one for each. -/
theorem edgesIn_linked (target : String) (parents : List String) (kind : EdgeKind) :
    edgesIn kind (linked target parents) =
      if kind = .viewToView then parents.map fun parent => (viewNode parent, target) else [] := by
  rw [linked, edgesIn, List.filterMap_cons]
  dsimp only
  induction parents with
  | nil => simp
  | cons parent rest ih =>
      rw [List.flatMap_cons, List.filterMap_append, ih]
      by_cases hkind : kind = .viewToView
      · simp [viewBefore, hkind]
      · simp [viewBefore, hkind, Ne.symm hkind]

/-- The nodes that come with the references are the view and the views that it refers to. -/
theorem node_mem_linked_iff (target : String) (parents : List String) (node : String)
    (kind : NodeKind) :
    .node node kind ∈ linked target parents ↔
      kind = .view ∧ (node = target ∨ ∃ parent ∈ parents, node = viewNode parent) := by
  simp only [linked, List.mem_cons, List.mem_flatMap, viewBefore, Addition.node.injEq,
    List.not_mem_nil, reduceCtorEq, or_false]
  constructor
  · rintro (⟨rfl, rfl⟩ | ⟨parent, hparent, rfl, rfl⟩)
    · exact ⟨rfl, .inl rfl⟩
    · exact ⟨rfl, .inr ⟨parent, hparent, rfl⟩⟩
  · rintro ⟨rfl, rfl | ⟨parent, hparent, rfl⟩⟩
    · exact .inl ⟨rfl, rfl⟩
    · exact .inr ⟨parent, hparent, rfl, rfl⟩

open Classical in
/-- **A VIEW AND ITS SQL**: a view with a derived table that extends no other view adds itself and
the views that its SQL refers to, each once, with an edge from each of these to itself, in whatever
order they come, and no other edge.  What it refers to is what the search for the pattern finds, and
is told by the text alone; where every opening is closed before the next one, it is every name in
front of a mark. -/
theorem view_linked_from_references (graph : Graph String) {fields table : Fields}
    {name sql : String} (hname : Fields.get? fields "name" = some (.text name))
    (htable : Fields.get? fields "derived_table" = some (.record table))
    (hsql : Fields.get? table "sql" = some (.text sql))
    (hextends : Fields.get? fields "extends" = none) :
    graph.follow (declareView (.record fields)) =
      ⟨graph.addAll (linked (viewNode name) (references sql)), none⟩ ∧
    references sql = ((search 0 sql.toList).map String.ofList).eraseDups ∧
    (references sql).Nodup ∧
    (∀ parent, parent ∈ references sql ↔ Refers sql parent) ∧
    (ClosedInTurn sql → ∀ before parent after : String,
      sql = before ++ "$\x7b" ++ parent ++ ".SQL_TABLE_NAME\x7d" ++ after → parent ≠ "" →
      '\x7d' ∉ parent.toList → parent ∈ references sql) ∧
    ∀ order : List String, order.Perm (references sql) →
      (graph.addAll (linked (viewNode name) order)).viewToView =
        graph.viewToView ++ order.map (fun parent => (viewNode parent, viewNode name)) ∧
      (∀ kind, kind ≠ .viewToView →
        (graph.addAll (linked (viewNode name) order)).edgesOf kind = graph.edgesOf kind) ∧
      ∀ node : String, (graph.addAll (linked (viewNode name) order)).kind? node =
        if node = viewNode name ∨ ∃ parent, Refers sql parent ∧ node = viewNode parent then
          some .view
        else graph.kind? node := by
  refine ⟨by rw [follow, declareView_eq hname htable hsql hextends]; rfl,
    by rw [references, search_eq], nodup_eraseDups _, mem_references_iff sql,
    fun hclosed before parent after heq hne hfree =>
      (mem_references_iff sql parent).mpr (hclosed.refers heq hne hfree), fun order horder => ?_⟩
  refine ⟨?_, fun kind hkind => ?_, fun node => ?_⟩
  · show (graph.addAll _).edgesOf .viewToView = _
    rw [edgesOf_addAll, edgesIn_linked, if_pos rfl]
    rfl
  · rw [edgesOf_addAll, edgesIn_linked, if_neg hkind, List.append_nil]
  · simp only [← mem_references_iff, ← horder.mem_iff]
    split
    · next hnode =>
        refine kind?_addAll_of_mem _ graph (fun other hother => ?_) (.inr ?_)
        · exact ((node_mem_linked_iff _ _ _ _).mp hother).1
        · exact (node_mem_linked_iff _ _ _ _).mpr ⟨rfl, hnode⟩
    · next hnode =>
        refine kind?_addAll_of_not_mem _ graph fun kind hmem => hnode ?_
        exact ((node_mem_linked_iff _ _ _ _).mp hmem).2

/-- A text that refers to `a` twice, to `b` behind a second dollar sign, and to something with an
opening in it; without a name there is no reference. -/
def nested : String :=
  "$\x7ba.SQL_TABLE_NAME\x7d $$\x7bb.SQL_TABLE_NAME\x7d $\x7bx $\x7bc.SQL_TABLE_NAME\x7d " ++
    "$\x7b.SQL_TABLE_NAME\x7d $\x7ba.SQL_TABLE_NAME\x7d $\x7bopen"

/-- The view `top` over this text. -/
def nestedView : Fields :=
  [("name", .text "top"), ("derived_table", .record [("sql", .text nested)])]

/-- It has three edges, and the inner opening opens nothing. -/
theorem nested_linked :
    ((Graph.empty : Graph String).follow (declareView (.record nestedView))).graph.viewToView =
      [("a.view", "top.view"), ("b.view", "top.view"), ("x $\x7bc.view", "top.view")] ∧
    Refers nested "x $\x7bc" ∧ ¬ Refers nested "c" := by
  obtain ⟨hfollow, _, _, hrefers, _, hedges⟩ :=
    @view_linked_from_references Graph.empty nestedView _ _ _ rfl rfl rfl rfl
  have hreferences : references nested = ["a", "b", "x $\x7bc"] := by decide
  refine ⟨?_, (hrefers _).mp (by rw [hreferences]; simp), fun h => ?_⟩
  · rw [hfollow, (hedges _ (List.Perm.refl _)).1, hreferences]
    rfl
  · exact absurd ((hrefers _).mpr h) (by rw [hreferences]; decide)

end LookmlProject.Graph
