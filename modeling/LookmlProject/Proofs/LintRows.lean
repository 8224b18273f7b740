import LookmlProject.Lint.Run
import LookmlProject.Proofs.Entries

/-! # The rows of a lint, one by one

    A lint gathers rows over all patterns, gives each its pattern only when the
    last document of the pattern is judged, and marks the fields of a view while
    it judges them.  The rows are those of the plain enumeration all the same:
    patterns in order, the documents of each in order, and for each document the
    rules in order, or the kinds of fields, the fields of the kind in the first
    view and the rules, where every row is made with the pattern that found its
    document (`Found.documentRows`, `Found.fieldRows`).  In which order a pattern
    tells its documents is not promised, so all is said for any expansion of
    patterns.  The route:

    * a trail that must not stop is an enumeration (`complete_flatMap`);
    * marking the fields under one key leaves those under the others as they stand
      in the document (`Linter.fieldsUnder_judgeFields`);
    * the rows so far have their patterns, so that giving out a pattern reaches the
      new rows only (`Rows.Tagged.tag_append`): the invariant of the loop over patterns. -/

namespace LookmlProject.Lint

open Lookml Value

/-! ## Enumerations -/

/-- What a function gives for the elements of a list, in order, unless it has a fault for one. -/
def gather {α β : Type} (f : α → Except Fault (List β)) : List α → Except Fault (List β)
  | [] => .ok []
  | a :: rest => do
    let first ← f a
    return first ++ (← gather f rest)

/-- A document that a pattern has found, with its path. -/
structure Found where
  glob : String
  path : String
  doc : Document

/-- The documents that a pattern finds, in the order in which it is expanded. -/
def foundBy (expand : Glob.Expansion) (store : Store) (glob : Value) :
    Except Fault (List Found) := do
  let glob ← glob.asText
  gather (fun path => do return [⟨glob, path, ← Document.load store path⟩]) (← expand store glob)

namespace Found

/-- The row of a rule about a document, none if the rule is not about it. -/
def documentRow (found : Found) (rule : Rule) : Except Fault (List DocumentRow) := do
  match ← rule.onDocument found.doc with
  | .irrelevant => return []
  | .judged passed =>
    return [⟨.text (Store.baseName found.path), rule.name, passed, some found.glob⟩]

/-- The rows about a document. -/
def documentRows (linter : Linter) (found : Found) : Except Fault (List DocumentRow) :=
  gather found.documentRow linter.documentRules

/-- The row of a rule about a field, none if the rule is not about it. -/
def fieldRow (found : Found) (kind : String) (parameters : Fields) (rule : Rule) :
    Except Fault (List FieldRow) := do
  match ← rule.onField ⟨Linter.mark (.text kind) parameters⟩ with
  | .irrelevant => return []
  | .judged passed =>
    return [⟨.text (Store.baseName found.path), rule.name, passed, .text kind,
      ← (Value.record parameters).lookup "name", some found.glob⟩]

end Found

/-- The fields of a view under a key. -/
def fieldsUnder (view : Value) (key : String) : Except Fault (List Value) := do
  if ← view.has key then (← view.lookup key).elements else return []

/-- The parameters of a field. -/
def parametersOf : Value → Except Fault Fields
  | .record parameters => .ok parameters
  | _ => .error .wrongShape

/-- The rows about the fields in the first view of a document. -/
def Found.fieldRows (linter : Linter) (found : Found) : Except Fault (List FieldRow) := do
  if found.doc.hasViews then
    let view ← found.doc.views.nth 0
    gather (fun kind => do
      gather (fun field => do
        let parameters ← parametersOf field
        gather (found.fieldRow kind.1 parameters) linter.fieldRules)
        (← fieldsUnder view kind.2)) Linter.fieldKinds
  else return []

section Gather

variable {α β γ : Type}

theorem gather_cons (f : α → Except Fault (List β)) (a : α) (rest : List α) :
    gather f (a :: rest) = f a >>= fun first => gather f rest >>= fun others =>
      .ok (first ++ others) := rfl

/-- Only what is made of the items themselves matters. -/
theorem gather_congr {f g : α → Except Fault (List β)} {items : List α}
    (h : ∀ a ∈ items, f a = g a) : gather f items = gather g items := by
  induction items with
  | nil => rfl
  | cons a rest ih =>
      rw [gather_cons, gather_cons, h a List.mem_cons_self,
        ih fun b hb => h b (List.mem_cons_of_mem _ hb)]

/-- Changing each result is changing all of them at the end. -/
theorem gather_map (change : β → γ) (f : α → Except Fault (List β)) (items : List α) :
    gather (fun a => List.map change <$> f a) items = List.map change <$> gather f items := by
  induction items with
  | nil => rfl
  | cons a rest ih =>
      rw [gather_cons, gather_cons, ih]
      cases f a with
      | error fault => rfl
      | ok first =>
          cases gather f rest with
          | error fault => rfl
          | ok others => exact congrArg Except.ok List.map_append.symm

/-- Gathering over two lists is gathering over each, and putting the results in a row. -/
theorem gather_append {f : α → Except Fault (List β)} {first second : List α} {xs ys : List β}
    (hfirst : gather f first = .ok xs) (hsecond : gather f second = .ok ys) :
    gather f (first ++ second) = .ok (xs ++ ys) := by
  induction first generalizing xs with
  | nil =>
      cases hfirst
      exact hsecond
  | cons a rest ih =>
      rw [gather_cons, bind_eq_ok] at hfirst
      obtain ⟨head, hhead, hrest⟩ := hfirst
      obtain ⟨others, hothers, heq⟩ := bind_eq_ok.mp hrest
      cases heq
      rw [List.cons_append, gather_cons, hhead]
      show (gather f (rest ++ second) >>= fun others => Except.ok (head ++ others)) = _
      rw [ih hothers]
      exact congrArg Except.ok (List.append_assoc ..).symm

/-! ## Trails that must not stop -/

/-- Work in two parts is complete if both parts are. -/
theorem complete_append (first second : Trail α) :
    complete (first ++ second) =
      complete first >>= fun xs => complete second >>= fun ys => .ok (xs ++ ys) := by
  obtain ⟨steps, fault⟩ := first
  obtain ⟨steps', fault'⟩ := second
  cases fault with
  | some fault => rfl
  | none => cases fault' <;> rfl

/-- Work that needs a result is complete if there is one and the work from it on is. -/
theorem complete_need (result : Except Fault β) (next : β → Trail α) :
    complete (Trail.need result next) = result >>= fun b => complete (next b) := by
  cases result <;> rfl

/-- Work on each item in turn is complete if the work on each is. -/
theorem complete_flatMap (work : β → Trail α) (items : List β) :
    complete (Trail.flatMap work items) = gather (fun b => complete (work b)) items := by
  induction items with
  | nil => rfl
  | cons b rest ih => rw [gather_cons, ← ih]; exact complete_append _ _

end Gather

/-! ## What the rules make of one document -/

namespace Found

variable (linter : Linter) (found : Found)

/-- The file that rows about a document name. -/
def file : Value := .text (Store.baseName found.path)

/-- The row of one rule about a document, with the pattern given out. -/
theorem documentRow_eq (rule : Rule) :
    found.documentRow rule = List.map (DocumentRow.tag found.glob) <$>
      complete (Linter.documentRow found.doc found.file rule) := by
  rw [documentRow, Linter.documentRow, complete_need]
  cases rule.onDocument found.doc with
  | error fault => rfl
  | ok verdict => cases verdict <;> rfl

/-- The rows about a document are those of its rules in turn. -/
theorem documentRows_eq :
    found.documentRows linter = List.map (DocumentRow.tag found.glob) <$>
      complete (linter.judgeDocument found.doc found.file) := by
  rw [Linter.judgeDocument, complete_flatMap, ← gather_map, documentRows]
  exact gather_congr fun rule _ => found.documentRow_eq rule

end Found

/-- The mark changes nothing but the kind. -/
theorem lookup_mark (kind : Value) (parameters : Fields) {key : String} (h : key ≠ "_type") :
    (Value.record (Linter.mark kind parameters)).lookup key =
      (Value.record parameters).lookup key := by
  rw [Value.lookup, Value.lookup, Linter.mark, get?_set, if_neg h.symm]

/-- The row of one rule about a field, with the pattern given out. -/
theorem Found.fieldRow_eq (found : Found) (kind : String) (parameters : Fields) (rule : Rule) :
    found.fieldRow kind parameters rule = List.map (FieldRow.tag found.glob) <$>
      complete (Linter.fieldRow (Linter.mark (.text kind) parameters) (.text kind) found.file
        rule) := by
  rw [fieldRow, Linter.fieldRow, complete_need]
  cases rule.onField ⟨Linter.mark (.text kind) parameters⟩ with
  | error fault => rfl
  | ok verdict =>
      cases verdict with
      | irrelevant => rfl
      | judged passed =>
          show _ = List.map _ <$> complete (Trail.need _ _)
          rw [lookup_mark _ _ (by decide), complete_need]
          show ((Value.record parameters).lookup "name" >>= _) = _
          cases (Value.record parameters).lookup "name" <;> rfl

namespace Linter

/-- The rows about the fields in a list, as an enumeration. -/
theorem complete_judgeItems (rules : List Rule) (kind file : Value) (items : List Value) :
    complete (judgeItems rules kind file items).2 = gather (fun item =>
      parametersOf item >>= fun parameters =>
        complete (Trail.flatMap (fieldRow (mark kind parameters) kind file) rules)) items := by
  induction items with
  | nil => rfl
  | cons item rest ih =>
      rw [gather_cons, ← ih]
      cases item with
      | record parameters =>
          rw [judgeItems]
          cases hfault :
              (Trail.flatMap (fieldRow (mark kind parameters) kind file) rules).fault with
          -- A rule that stops at a field ends the list there, and none of its rows is kept.
          | some fault =>
              show complete (Trail.flatMap (fieldRow (mark kind parameters) kind file) rules) =
                complete (Trail.flatMap (fieldRow (mark kind parameters) kind file) rules) >>= _
              rw [complete, hfault]
              rfl
          | none => exact complete_append _ _
      | null => rfl
      | bool b => rfl
      | int n => rfl
      | float x => rfl
      | text s => rfl
      | list items => rfl

/-- What the rules make of an entry of a view, where it may be a list of fields. -/
theorem complete_judgeEntry (linter : Linter) (fields : Fields) (kind file : Value) (key : String)
    (h : (Value.record fields).holds (.text key) = .ok true) :
    complete (linter.judgeFields (.record fields) kind (.text key) file).trail =
      ((Value.record fields).lookup key >>= elements) >>= gather fun field =>
        parametersOf field >>= fun parameters =>
          complete (Trail.flatMap (fieldRow (mark kind parameters) kind file)
            linter.fieldRules) := by
  rw [judgeFields, h]
  dsimp only
  cases (Value.record fields).lookup key with
  | error fault => rfl
  | ok found =>
      cases found with
      | list items => exact complete_judgeItems _ _ _ items
      | text s =>
          show complete _ = (Value.text s).elements >>= _
          dsimp only [elements]
          cases s.toList <;> rfl
      | record parameters => cases parameters <;> rfl
      | null => rfl
      | bool b => rfl
      | int n => rfl
      | float x => rfl

/-- The rows about the fields of a view under a key, as an enumeration of the fields that stand
there. -/
theorem complete_judgeFields (linter : Linter) (view kind file : Value) (key : String) :
    complete (linter.judgeFields view kind (.text key) file).trail =
      fieldsUnder view key >>= gather fun field => parametersOf field >>= fun parameters =>
        complete (Trail.flatMap (fieldRow (mark kind parameters) kind file)
          linter.fieldRules) := by
  cases view with
  | record fields =>
      cases hholds : (Value.record fields).holds (.text key) with
      | error fault => exact nomatch hholds
      | ok present =>
          rw [fieldsUnder, Value.has, hholds]
          cases present with
          | true => exact complete_judgeEntry linter fields kind file key hholds
          | false => rw [judgeFields, hholds]; rfl
  | text s =>
      unfold judgeFields
      rw [fieldsUnder, Value.has]
      cases (Value.text s).holds (.text key) with
      | error fault => rfl
      | ok present => cases present <;> rfl
  | list items =>
      unfold judgeFields
      rw [fieldsUnder, Value.has]
      cases (Value.list items).holds (.text key) with
      | error fault => rfl
      | ok present => cases present <;> rfl
  | null => rfl
  | bool b => rfl
  | int n => rfl
  | float x => rfl

/-- Judging the fields under a key leaves those under another as they are. -/
theorem fieldsUnder_judgeFields (linter : Linter) (view kind file : Value) {key other : String}
    (h : key ≠ other) :
    fieldsUnder (linter.judgeFields view kind (.text key) file).view other =
      fieldsUnder view other := by
  unfold judgeFields
  split
  · rfl
  · rfl
  · split
    · next fields name hkey _ =>
        obtain rfl : key = name := Value.text.inj hkey
        split
        · -- The fields that were judged are written back with their marks, under the first key.
          show fieldsUnder (.record (Fields.set fields key _)) other = _
          simp only [fieldsUnder, Value.has, Value.holds, Fields.has, Value.lookup, get?_set,
            if_neg h]
        · split <;> rfl
        · rfl
    · rfl

/-- The rows about the fields of a view, kind by kind, all of the view as it stands in the
document. -/
theorem complete_judgeKinds (linter : Linter) (file : Value) (kinds : List (String × String)) :
    ∀ view : Value, (kinds.map Prod.snd).Nodup →
      complete (linter.judgeKinds file view kinds) = gather (fun kind =>
        complete (linter.judgeFields view (.text kind.1) (.text kind.2) file).trail) kinds := by
  induction kinds with
  | nil => intro view _; rfl
  | cons first rest ih =>
      obtain ⟨kind, key⟩ := first
      intro view hdistinct
      rw [List.map_cons, List.nodup_cons] at hdistinct
      rw [gather_cons, judgeKinds, complete_append, ih _ hdistinct.2]
      -- The keys that follow are other keys.
      have hframe : ∀ later ∈ rest,
          complete (linter.judgeFields (linter.judgeFields view (.text kind) (.text key) file).view
            (.text later.1) (.text later.2) file).trail =
          complete (linter.judgeFields view (.text later.1) (.text later.2) file).trail := by
        intro later hlater
        have hne : key ≠ later.2 := fun heq =>
          hdistinct.1 (List.mem_map.mpr ⟨later, hlater, heq.symm⟩)
        rw [complete_judgeFields, complete_judgeFields, fieldsUnder_judgeFields _ _ _ _ hne]
      rw [gather_congr hframe]

end Linter

/-- **THE ROWS ABOUT FIELDS** of a document are those of each rule for each field of each kind. -/
theorem Found.fieldRows_eq (linter : Linter) (found : Found) :
    found.fieldRows linter = List.map (FieldRow.tag found.glob) <$>
      complete (linter.judgeView found.doc found.file) := by
  rw [fieldRows, Linter.judgeView]
  split
  · rw [complete_need]
    cases found.doc.views.nth 0 with
    | error fault => rfl
    | ok view =>
        show _ = List.map _ <$> complete (linter.judgeKinds found.file view Linter.fieldKinds)
        rw [Linter.complete_judgeKinds _ _ _ _ (by decide), ← gather_map]
        refine gather_congr fun kind _ => ?_
        rw [Linter.complete_judgeFields]
        cases fieldsUnder view kind.2 with
        | error fault => rfl
        | ok fields =>
            show gather _ fields = List.map _ <$> gather _ fields
            rw [← gather_map]
            refine gather_congr fun field _ => ?_
            cases parametersOf field with
            | error fault => rfl
            | ok parameters =>
                show gather _ linter.fieldRules = List.map _ <$> complete _
                rw [complete_flatMap, ← gather_map]
                exact gather_congr fun rule _ => found.fieldRow_eq kind.1 parameters rule
  · rfl

/-! ## The loops over documents and patterns -/

namespace Rows

/-- Every row says its pattern. -/
def Tagged (rows : Rows) : Prop :=
  (∀ row ∈ rows.documents, row.glob.isSome) ∧ ∀ row ∈ rows.fields, row.glob.isSome

/-- Rows are put in a row in any grouping. -/
theorem append_assoc (first second third : Rows) :
    (first.append second).append third = first.append (second.append third) := by
  simp [append]

theorem empty_append (rows : Rows) : empty.append rows = rows := by
  simp [append, empty]

theorem append_empty (rows : Rows) : rows.append empty = rows := by
  simp [append, empty]

theorem tagged_empty : empty.Tagged := by
  constructor
  · intro row hrow
    exact nomatch hrow
  · intro row hrow
    exact nomatch hrow

/-- After a pattern is given out, every row says one. -/
theorem tagged_tag (glob : String) (rows : Rows) : (rows.tag glob).Tagged := by
  constructor
  · intro row hrow
    obtain ⟨old, _, rfl⟩ := List.mem_map.mp hrow
    show (old.glob.or (some glob)).isSome
    cases old.glob <;> rfl
  · intro row hrow
    obtain ⟨old, _, rfl⟩ := List.mem_map.mp hrow
    show (old.glob.or (some glob)).isSome
    cases old.glob <;> rfl

/-- Rows that say their patterns are left alone. -/
theorem Tagged.tag {rows : Rows} (h : rows.Tagged) (glob : String) : rows.tag glob = rows := by
  have hsome : ∀ own : Option String, own.isSome → own.or (some glob) = own := by
    intro own hown
    cases own with
    | none => exact nomatch hown
    | some _ => rfl
  have hdocuments : rows.documents.map (DocumentRow.tag glob) = rows.documents.map id :=
    List.map_congr_left fun row hrow => by rw [DocumentRow.tag, hsome _ (h.1 row hrow)]; rfl
  have hfields : rows.fields.map (FieldRow.tag glob) = rows.fields.map id :=
    List.map_congr_left fun row hrow => by rw [FieldRow.tag, hsome _ (h.2 row hrow)]; rfl
  rw [Rows.tag, hdocuments, hfields, List.map_id, List.map_id]

/-- Giving out a pattern reaches the new rows only. -/
theorem Tagged.tag_append {old : Rows} (h : old.Tagged) (glob : String) (new : Rows) :
    (old.append new).tag glob = old.append (new.tag glob) := by
  calc (old.append new).tag glob
      = (old.tag glob).append (new.tag glob) := by simp [Rows.tag, Rows.append]
    _ = old.append (new.tag glob) := by rw [h.tag]

end Rows

namespace Linter

/-- **ONE PATH** adds the rows about its document, which do not say a pattern yet. -/
theorem lintPath_found {linter : Linter} {store : Store} {rows rows' : Rows} {path : String}
    (h : linter.lintPath store rows path = .ok rows') (glob : String) :
    ∃ (doc : Document) (new : Rows), Document.load store path = .ok doc ∧
      Found.documentRows linter ⟨glob, path, doc⟩ = .ok (new.tag glob).documents ∧
      Found.fieldRows linter ⟨glob, path, doc⟩ = .ok (new.tag glob).fields ∧
      rows' = rows.append new := by
  obtain ⟨doc, hdoc, h⟩ := bind_eq_ok.mp h
  obtain ⟨documents, hdocuments, h⟩ := bind_eq_ok.mp h
  obtain ⟨fields, hfields, h⟩ := bind_eq_ok.mp h
  cases h
  refine ⟨doc, ⟨documents, fields⟩, hdoc, ?_, ?_, rfl⟩
  · rw [Found.documentRows_eq, Found.file, hdocuments]
    rfl
  · rw [Found.fieldRows_eq, Found.file, hfields]
    rfl

/-- The documents at some paths. -/
theorem foldlM_lintPath {linter : Linter} {store : Store} (glob : String) (paths : List String) :
    ∀ rows rows' : Rows, paths.foldlM (linter.lintPath store) rows = .ok rows' →
      ∃ (found : List Found) (new : Rows),
        gather (fun path => do return [⟨glob, path, ← Document.load store path⟩]) paths =
          .ok found ∧
        gather (Found.documentRows linter) found = .ok (new.tag glob).documents ∧
        gather (Found.fieldRows linter) found = .ok (new.tag glob).fields ∧
        rows' = rows.append new := by
  induction paths with
  | nil =>
      intro rows rows' h
      cases h
      exact ⟨[], .empty, rfl, rfl, rfl, (Rows.append_empty rows).symm⟩
  | cons path rest ih =>
      intro rows rows' h
      obtain ⟨middle, hpath, hrest⟩ := bind_eq_ok.mp h
      obtain ⟨doc, new, hdoc, hdocuments, hfields, rfl⟩ := lintPath_found hpath glob
      obtain ⟨found, others, hfound, hdocuments', hfields', rfl⟩ := ih _ _ hrest
      refine ⟨⟨glob, path, doc⟩ :: found, new.append others, ?_, ?_, ?_,
        Rows.append_assoc rows new others⟩
      · rw [gather_cons, hdoc, hfound]
        rfl
      · rw [gather_cons, hdocuments, hdocuments']
        exact congrArg Except.ok List.map_append.symm
      · rw [gather_cons, hfields, hfields']
        exact congrArg Except.ok List.map_append.symm

/-- **ONE PATTERN** adds the rows about its documents with their pattern, provided that the rows so
far have theirs. -/
theorem lintGlob_found {linter : Linter} {expand : Glob.Expansion} {store : Store}
    {rows rows' : Rows} {glob : Value}
    (h : linter.lintGlob expand store rows glob = .ok rows') (htagged : rows.Tagged) :
    ∃ (found : List Found) (new : Rows), foundBy expand store glob = .ok found ∧
      gather (Found.documentRows linter) found = .ok new.documents ∧
      gather (Found.fieldRows linter) found = .ok new.fields ∧
      rows' = rows.append new ∧ rows'.Tagged := by
  obtain ⟨text, htext, h⟩ := bind_eq_ok.mp h
  obtain ⟨paths, hpaths, h⟩ := bind_eq_ok.mp h
  obtain ⟨judged, hjudged, h⟩ := bind_eq_ok.mp h
  cases h
  obtain ⟨found, new, hfound, hdocuments, hfields, rfl⟩ := foldlM_lintPath text paths _ _ hjudged
  -- All rows are tagged again after each pattern; those that say theirs already are left alone.
  refine ⟨found, new.tag text, ?_, hdocuments, hfields, htagged.tag_append text new, ?_⟩
  · rw [foundBy, htext]
    show (expand store text >>= _) = _
    rw [hpaths]
    exact hfound
  · exact Rows.tagged_tag text _

/-- **ALL PATTERNS**, by induction: rows that follow do not touch those that have their pattern. -/
theorem foldlM_lintGlob {linter : Linter} {expand : Glob.Expansion} {store : Store}
    (globs : List Value) : ∀ rows rows' : Rows, rows.Tagged →
      globs.foldlM (linter.lintGlob expand store) rows = .ok rows' →
      ∃ (found : List Found) (new : Rows), gather (foundBy expand store) globs = .ok found ∧
        gather (Found.documentRows linter) found = .ok new.documents ∧
        gather (Found.fieldRows linter) found = .ok new.fields ∧
        rows' = rows.append new := by
  induction globs with
  | nil =>
      intro rows rows' _ h
      cases h
      exact ⟨[], .empty, rfl, rfl, rfl, (Rows.append_empty rows).symm⟩
  | cons glob rest ih =>
      intro rows rows' htagged h
      obtain ⟨middle, hglob, hrest⟩ := bind_eq_ok.mp h
      -- The invariant is that the rows so far say their patterns.
      obtain ⟨found, new, hfound, hdocuments, hfields, rfl, htagged'⟩ :=
        lintGlob_found hglob htagged
      obtain ⟨found', new', hfound', hdocuments', hfields', rfl⟩ := ih _ _ htagged' hrest
      refine ⟨found ++ found', new.append new', ?_, gather_append hdocuments hdocuments',
        gather_append hfields hfields', Rows.append_assoc rows new new'⟩
      rw [gather_cons, hfound, hfound']
      rfl

/-- The rows that a lint collects are those of the documents that the patterns of its settings
find. -/
theorem rows_of_collect {linter : Linter} {expand : Glob.Expansion} {store : Store} {rows : Rows}
    (h : linter.collectWith expand store = .ok rows) :
    ∃ (globs : List Value) (found : List Found),
      (linter.settings.lookup "infile_globs" >>= elements) = .ok globs ∧
      gather (foundBy expand store) globs = .ok found ∧
      gather (Found.documentRows linter) found = .ok rows.documents ∧
      gather (Found.fieldRows linter) found = .ok rows.fields := by
  obtain ⟨others, _, h⟩ := bind_eq_ok.mp h
  split at h
  · cases h
  · obtain ⟨value, hvalue, h⟩ := bind_eq_ok.mp h
    obtain ⟨globs, hglobs, h⟩ := bind_eq_ok.mp h
    obtain ⟨found, new, hfound, hdocuments, hfields, rfl⟩ :=
      foldlM_lintGlob globs .empty rows Rows.tagged_empty h
    rw [Rows.empty_append]
    exact ⟨globs, found, bind_eq_ok.mpr ⟨value, hvalue, hglobs⟩, hfound, hdocuments, hfields⟩

end Linter

/-! ## The whole run -/

/-- Work at a desk that did not stop went through its first part. -/
theorem bind_run_eq_ok {α β : Type} {x : Delivery α} {f : α → Delivery β} {desk desk' : Desk}
    {b : β} (h : (x >>= f).run desk = .ok b desk') :
    ∃ (a : α) (middle : Desk), x.run desk = .ok a middle ∧ (f a).run middle = .ok b desk' := by
  change EStateM.bind x f desk = .ok b desk' at h
  rw [EStateM.bind] at h
  split at h
  · next a middle hx => exact ⟨a, middle, hx, h⟩
  · exact nomatch h

/-- A result that is needed at a desk is there if the work did not stop. -/
theorem lift_run_eq_ok {α : Type} {result : Except Fault α} {desk desk' : Desk} {a : α}
    (h : (Delivery.lift result).run desk = .ok a desk') : result = .ok a := by
  cases result with
  | error fault => exact nomatch h
  | ok b => cases h; rfl

/-- A lint that has delivered its reports returns the rows that it has collected. -/
theorem Linter.collect_of_run {linter : Linter} {expand : Glob.Expansion} {time : String}
    {desk desk' : Desk} {rows : Rows}
    (h : (linter.runWith expand time).run desk = .ok rows desk') :
    linter.collectWith expand desk.store = .ok rows := by
  rw [Linter.runWith] at h
  obtain ⟨here, _, hget, h⟩ := bind_run_eq_ok h
  cases hget
  obtain ⟨collected, _, hcollect, h⟩ := bind_run_eq_ok h
  obtain ⟨_, _, _, h⟩ := bind_run_eq_ok h
  obtain ⟨_, _, _, h⟩ := bind_run_eq_ok h
  obtain ⟨_, _, _, h⟩ := bind_run_eq_ok h
  obtain ⟨_, _, _, h⟩ := bind_run_eq_ok h
  cases h
  exact lift_run_eq_ok hcollect

/-- **THE ROWS OF A LINT** that has no fault, however patterns are expanded: the documents that the
patterns of the settings find, pattern by pattern, can all be read; the rows about documents are
those of the rules in order, for each of these documents in order; and the rows about fields are
those of the kinds, fields and rules in order, for each of these documents in order.  Every row says
the pattern that has found its document, so that a document found by several patterns has rows of
its own for each. -/
theorem run_rows_one_by_one {linter : Linter} {expand : Glob.Expansion} {time : String}
    {desk desk' : Desk} {rows : Rows}
    (h : (linter.runWith expand time).run desk = .ok rows desk') :
    ∃ (globs : List Value) (found : List Found),
      (linter.settings.lookup "infile_globs" >>= elements) = .ok globs ∧
      gather (foundBy expand desk.store) globs = .ok found ∧
      gather (Found.documentRows linter) found = .ok rows.documents ∧
      gather (Found.fieldRows linter) found = .ok rows.fields :=
  Linter.rows_of_collect (Linter.collect_of_run h)

/-- A lint with two patterns that find the same document. -/
def overlapping : Linter where
  settings := .record [("rules", .record []), ("output", .record []),
    ("infile_globs", .list [.text "*.lkml", .text "v*"]), ("git", .record [("url", .null)])]
  documentRules := [⟨.oneViewPerFile, .null⟩]
  fieldRules := [⟨.description, .null⟩, ⟨.drillDown, .null⟩]

/-- A desk with a document of a dimension and a measure. -/
def smallDesk : Desk :=
  ⟨⟨[(["v.view.lkml"],
    "view: v \x7b\n dimension: a \x7b\x7d\n measure: b \x7b\x7d\n\x7d\n")], []⟩, []⟩

/-- A document that two patterns find has its rows twice. -/
theorem overlapping_rows :
    ∃ (rows : Rows) (desk' : Desk), (overlapping.run "now").run smallDesk = .ok rows desk' ∧
      rows.documents.map DocumentRow.glob = [some "*.lkml", some "v*"] ∧
      rows.fields.map (fun row => (row.rule, row.glob)) =
        [("DescriptionRule", some "*.lkml"), ("DescriptionRule", some "*.lkml"),
          ("DrillDownRule", some "*.lkml"), ("DescriptionRule", some "v*"),
          ("DescriptionRule", some "v*"), ("DrillDownRule", some "v*")] ∧
      ∃ (globs : List Value) (found : List Found),
        (overlapping.settings.lookup "infile_globs" >>= elements) = .ok globs ∧
        gather (foundBy Glob.expand smallDesk.store) globs = .ok found ∧
        gather (Found.documentRows overlapping) found = .ok rows.documents ∧
        gather (Found.fieldRows overlapping) found = .ok rows.fields := by
  have hsummary : (match (overlapping.run "now").run smallDesk with
      | .ok rows _ => some (rows.documents.map DocumentRow.glob,
          rows.fields.map fun row => (row.rule, row.glob))
      | .error _ _ => none) = some ([some "*.lkml", some "v*"],
        [("DescriptionRule", some "*.lkml"), ("DescriptionRule", some "*.lkml"),
          ("DrillDownRule", some "*.lkml"), ("DescriptionRule", some "v*"),
          ("DescriptionRule", some "v*"), ("DrillDownRule", some "v*")]) := by
    decide +kernel
  cases hrun : (overlapping.run "now").run smallDesk with
  | error fault desk => rw [hrun] at hsummary; exact nomatch hsummary
  | ok rows desk' =>
      rw [hrun] at hsummary
      obtain ⟨hdocuments, hfields⟩ := Prod.mk.inj (Option.some.inj hsummary)
      exact ⟨rows, desk', rfl, hdocuments, hfields, run_rows_one_by_one hrun⟩

end LookmlProject.Lint
