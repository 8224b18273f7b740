import LookmlProject.Proofs.Entries
import LookmlProject.Proofs.FileNames
import LookmlProject.Proofs.Recorded
import LookmlProject.Rule.NoOrphans
import Mathlib.Data.Finset.Max

/-! # The rows of the rule about orphans

    The rule keeps the path of a document with views under the base name of the
    document, which is the name `x` of its view where each view `x` has a file
    `x.view.lkml` of its own.  An orphan is looked up by the name of its node,
    which is `x.view`.  The route:

    * one document adds to the graph and to the paths (`process_accepted`), and
      documents in a row do so one after the other (`processAll_accepted`);
    * in a project with a file for each view, the row that is found for a node is
      about the view that bears the name of the node (`Project.row_about`);
    * so a row about the right file takes an orphan `x` to an orphan `x.view`, and
      no finite project has an orphan with the longest name (`Reports.next_orphan`).

    The rule reports the orphans of a project if there are none
    (`finish_reports_iff_no_orphan`). -/

namespace LookmlProject

/-! ## Work on each element of a list -/

/-- Each item has a result. -/
theorem exists_of_forall₂ {α β : Type} {rel : α → β → Prop} {items : List α} {results : List β}
    (h : List.Forall₂ rel items results) {a : α} (ha : a ∈ items) : ∃ b ∈ results, rel a b := by
  induction h with
  | nil => cases ha
  | @cons a' b items results hab _ ih =>
      rcases List.mem_cons.mp ha with rfl | ha
      · exact ⟨b, List.mem_cons_self, hab⟩
      · obtain ⟨b', hb', hrel⟩ := ih ha
        exact ⟨b', List.mem_cons_of_mem _ hb', hrel⟩

/-- Work on a list gives the results of its items in order. -/
theorem mapM_eq_ok {α β : Type} {step : α → Except Fault β} {items : List α} {results : List β} :
    items.mapM step = .ok results ↔ List.Forall₂ (fun a b => step a = .ok b) items results := by
  induction items generalizing results with
  | nil =>
      rw [List.mapM_nil, List.forall₂_nil_left_iff]
      exact ⟨fun h => by cases h; rfl, fun h => by rw [h]; rfl⟩
  | cons item rest ih =>
      rw [List.mapM_cons, List.forall₂_cons_left_iff, bind_eq_ok]
      refine exists_congr fun b => ?_
      constructor
      · rintro ⟨hitem, hrest⟩
        obtain ⟨bs, hbs, hresults⟩ := bind_eq_ok.mp hrest
        cases hresults
        exact ⟨bs, hitem, ih.mp hbs, rfl⟩
      · rintro ⟨bs, hitem, hbs, rfl⟩
        exact ⟨hitem, bind_eq_ok.mpr ⟨bs, ih.mpr hbs, rfl⟩⟩

/-- Work on a list ends early at an element. -/
theorem mem_of_mapM_eq_error {α β : Type} {step : α → Except Fault β} {items : List α}
    {fault : Fault} (h : items.mapM step = .error fault) : ∃ a ∈ items, step a = .error fault := by
  induction items with
  | nil => cases h
  | cons item rest ih =>
      rw [List.mapM_cons] at h
      cases hitem : step item with
      | error cause =>
          rw [hitem] at h
          cases h
          exact ⟨item, List.mem_cons_self, hitem⟩
      | ok b =>
          rw [hitem] at h
          cases hrest : rest.mapM step with
          | error cause =>
              change rest.mapM step >>= _ = _ at h
              rw [hrest] at h
              cases h
              obtain ⟨a, ha, hfault⟩ := ih hrest
              exact ⟨a, List.mem_cons_of_mem _ ha, hfault⟩
          | ok bs =>
              change rest.mapM step >>= _ = _ at h
              rw [hrest] at h
              cases h

namespace Rule.NoOrphans

open Lookml Value LookmlProject.Graph

/-! ## Projects -/

/-- The names of the views that a document declares. -/
def viewNames (doc : Document) : List String :=
  (members doc.views).filterMap fun view =>
    match view.lookup "name" with
    | .ok (.text name) => some name
    | _ => none

/-- Documents that are read from files and accepted, where each view has a file of its own. -/
structure Project (store : Store) (paths : List String) (docs : List Document) : Prop where
  loaded : paths.mapM (Document.load store) = .ok docs
  accepted : ∀ doc ∈ docs, (declareDocument doc : Trail (Addition String)).fault = none
  own : ∀ doc ∈ docs, ∀ name ∈ viewNames doc, Store.baseName doc.path = name ++ ".view.lkml"

/-- The graph of some documents. -/
def graphOf (docs : List Document) : Graph String :=
  ((Graph.empty : Graph String).processAll docs).graph

/-- A view from which no explore is reached. -/
def Orphan (docs : List Document) (name : String) : Prop :=
  (graphOf docs).Known (viewNode name) ∧ ¬ (graphOf docs).ReachesExplore (viewNode name)

/-- The row about a view that a document declares. -/
def RowAbout (docs : List Document) (name : String) (row : Lint.DocumentRow) : Prop :=
  ∃ doc ∈ docs, name ∈ viewNames doc ∧ row = ⟨.text doc.path, NoOrphans.name, false, none⟩

/-- One row about each orphan, with the path of a document that declares it, and no other row. -/
def Reports (docs : List Document) (rows : List Lint.DocumentRow) : Prop :=
  ∃ lost : List String, lost.Nodup ∧ (∀ name, name ∈ lost ↔ Orphan docs name) ∧
    List.Forall₂ (RowAbout docs) lost rows

/-! ## Documents one after the other -/

/-- Shows the rule documents in order, up to the first fault. -/
def processAll (rule : NoOrphans) : List Document → NoOrphans × Option Fault
  | [] => (rule, none)
  | doc :: rest =>
      match (rule.process doc).2 with
      | some fault => ((rule.process doc).1, some fault)
      | none => (rule.process doc).1.processAll rest

/-- The paths after one more document. -/
def keepPath (paths : Fields) (doc : Document) : Fields :=
  if doc.hasViews then Fields.set paths doc.baseName (.text doc.path) else paths

/-- A document with views that is accepted has a first view, and that one has a name. -/
theorem first_view {doc : Document}
    (haccepted : (declareDocument doc : Trail (Addition String)).fault = none)
    (hviews : doc.hasViews = true) :
    (∃ view, doc.views.nth 0 = .ok view) ∧ ∃ name, name ∈ viewNames doc := by
  have hway := eq_of_accepted haccepted
  rw [declareDocument, if_pos hviews] at hway
  obtain ⟨items, hitems, hway⟩ := Trail.need_eq_of.mp hway
  cases items with
  | nil => exact absurd (truthy_views hviews) (by rw [truthy_of_no_elements hitems]; decide)
  | cons view rest =>
      obtain ⟨part, hpart, _⟩ := Trail.flatMap_eq_of hway view List.mem_cons_self
      obtain ⟨name, hname, _⟩ := declareView_steps hpart
      refine ⟨?_, name, ?_⟩
      · rcases first_member hitems with hnth | ⟨s, rfl⟩
        · exact ⟨view, hnth⟩
        · cases hname
      · rw [viewNames, members_eq hitems]
        exact List.mem_filterMap.mpr ⟨view, List.mem_cons_self, by rw [hname]⟩

/-- **ONE DOCUMENT** that is accepted: it is added to the graph, and its path is kept. -/
theorem process_accepted (rule : NoOrphans) {doc : Document}
    (h : (declareDocument doc : Trail (Addition String)).fault = none) :
    rule.process doc = (⟨(rule.graph.process doc).graph, keepPath rule.paths doc⟩, none) := by
  have hfault : (rule.graph.process doc).fault = none := h
  rw [process, hfault]
  dsimp only
  cases hviews : doc.hasViews with
  | false => simp [keepPath, hviews]
  | true =>
      obtain ⟨⟨view, hview⟩, _⟩ := first_view h hviews
      simp [keepPath, hviews, hview]

/-- **DOCUMENTS IN A ROW** that are accepted: all are added to the graph, and their paths are
kept. -/
theorem processAll_accepted (docs : List Document) :
    ∀ rule : NoOrphans,
      (∀ doc ∈ docs, (declareDocument doc : Trail (Addition String)).fault = none) →
      rule.processAll docs =
        (⟨(rule.graph.processAll docs).graph, docs.foldl keepPath rule.paths⟩, none) := by
  induction docs with
  | nil => intro rule _; rfl
  | cons doc rest ih =>
      intro rule h
      have hdoc := h doc List.mem_cons_self
      have hfault : (rule.graph.process doc).fault = none := hdoc
      rw [processAll, process_accepted rule hdoc, Graph.processAll, hfault]
      exact ih _ fun other hother => h other (List.mem_cons_of_mem _ hother)

/-! ## The paths -/

/-- A document has the path that it was read from, and its base name from there. -/
theorem load_path {store : Store} {path : String} {doc : Document}
    (h : Document.load store path = .ok doc) :
    doc.path = path ∧ doc.baseName = String.ofList (baseNameOf (Store.baseName path).toList) := by
  rw [Document.load] at h
  split at h
  · dsimp only at h
    split at h
    · cases h
    split at h
    · cases h
    split at h
    · cases h
    cases h
    exact ⟨rfl, rfl⟩
  · cases h

/-- In a project the base name of a document is the name of its view. -/
theorem Project.baseName_eq {store : Store} {paths : List String} {docs : List Document}
    (h : Project store paths docs) {doc : Document} (hdoc : doc ∈ docs) {name : String}
    (hname : name ∈ viewNames doc) : doc.baseName = name := by
  obtain ⟨path, _, hload⟩ := exists_of_forall₂ (mapM_eq_ok.mp h.loaded).flip hdoc
  obtain ⟨hpath, hbase⟩ := load_path hload
  rw [hbase, ← hpath, h.own doc hdoc name hname, String.toList_append,
    baseNameOf_named (by decide), String.ofList_toList]

/-- Kept are the paths of the documents with views, under their base names. -/
structure Kept (docs : List Document) (paths : Fields) : Prop where
  sound : ∀ key value, Fields.get? paths key = some value →
    ∃ doc ∈ docs, doc.hasViews = true ∧ doc.baseName = key ∧ value = .text doc.path
  complete : ∀ doc ∈ docs, doc.hasViews = true → (Fields.get? paths doc.baseName).isSome = true

/-- **ONE MORE DOCUMENT** keeps the paths right. -/
theorem Kept.keepPath {docs : List Document} {paths : Fields} (h : Kept docs paths)
    (doc : Document) : Kept (docs ++ [doc]) (keepPath paths doc) := by
  rw [NoOrphans.keepPath]
  -- A document without views leaves the paths as they are.
  by_cases hviews : doc.hasViews = true
  · rw [if_pos hviews]
    constructor
    · intro key value hget
      rw [get?_set] at hget
      by_cases hkey : doc.baseName = key
      · rw [if_pos hkey] at hget
        cases hget
        exact ⟨doc, by simp, hviews, hkey, rfl⟩
      · rw [if_neg hkey] at hget
        obtain ⟨other, hother, hrest⟩ := h.sound key value hget
        exact ⟨other, List.mem_append_left _ hother, hrest⟩
    · intro other hother hviews'
      rw [get?_set]
      by_cases hkey : doc.baseName = other.baseName
      · rw [if_pos hkey]
        rfl
      · rw [if_neg hkey]
        rcases List.mem_append.mp hother with hother | hother
        · exact h.complete other hother hviews'
        · exact absurd (congrArg Document.baseName (List.mem_singleton.mp hother)).symm hkey
  · rw [if_neg hviews]
    constructor
    · intro key value hget
      obtain ⟨other, hother, hrest⟩ := h.sound key value hget
      exact ⟨other, List.mem_append_left _ hother, hrest⟩
    · intro other hother hviews'
      rcases List.mem_append.mp hother with hother | hother
      · exact h.complete other hother hviews'
      · rw [List.mem_singleton.mp hother] at hviews'
        exact absurd hviews' hviews

/-- **ALL DOCUMENTS**, by induction. -/
theorem kept_foldl (docs : List Document) :
    ∀ (before : List Document) (paths : Fields), Kept before paths →
      Kept (before ++ docs) (docs.foldl NoOrphans.keepPath paths) := by
  induction docs with
  | nil => intro before paths h; rwa [List.append_nil]
  | cons doc rest ih =>
      intro before paths h
      have hrest := ih _ _ (h.keepPath doc)
      rwa [List.append_assoc] at hrest

/-- The paths that some documents leave. -/
def pathsOf (docs : List Document) : Fields := docs.foldl NoOrphans.keepPath []

theorem kept_pathsOf (docs : List Document) : Kept docs (pathsOf docs) :=
  kept_foldl docs [] [] ⟨fun _ _ h => (nomatch h), fun _ h => (nomatch h)⟩

/-- A document that declares a view has views. -/
theorem hasViews_of_mem {doc : Document} {name : String} (h : name ∈ viewNames doc) :
    doc.hasViews = true := by
  by_contra hviews
  have hnone : members doc.views = [] :=
    members_of_not_present (Bool.eq_false_iff.mpr hviews)
  rw [viewNames, hnone] at h
  cases h

/-! ## The rows -/

theorem row_of_some {paths : Fields} {node : String} {value : Value}
    (h : Fields.get? paths node = some value) :
    row paths node = .ok ⟨value, NoOrphans.name, false, none⟩ := by
  rw [row, Value.lookup, h]
  rfl

/-- Without a path for the node there is no row, but a fault about the node. -/
theorem row_of_none {paths : Fields} {node : String} (h : Fields.get? paths node = none) :
    row paths node = .error (.missingKey node) := by
  rw [row, Value.lookup, h]
  rfl

variable {store : Store} {paths : List String} {docs : List Document}

/-- **THE ROW FOR A NODE** is about the view that bears the name of the node itself. -/
theorem Project.row_about (h : Project store paths docs) {node : String} {r : Lint.DocumentRow}
    (hrow : row (pathsOf docs) node = .ok r) : RowAbout docs node r := by
  cases hget : Fields.get? (pathsOf docs) node with
  | none => rw [row_of_none hget] at hrow; cases hrow
  | some value =>
      rw [row_of_some hget] at hrow
      cases hrow
      obtain ⟨doc, hdoc, hviews, hbase, rfl⟩ := (kept_pathsOf docs).sound node value hget
      obtain ⟨_, name, hname⟩ := first_view (h.accepted doc hdoc) hviews
      rw [h.baseName_eq hdoc hname] at hbase
      exact ⟨doc, hdoc, hbase ▸ hname, rfl⟩

/-- A node that bears the name of a view has a row. -/
theorem Project.row_of_declared (h : Project store paths docs) {doc : Document} (hdoc : doc ∈ docs)
    {node : String} (hnode : node ∈ viewNames doc) : ∃ r, row (pathsOf docs) node = .ok r := by
  have hsome := (kept_pathsOf docs).complete doc hdoc (hasViews_of_mem hnode)
  rw [h.baseName_eq hdoc hnode] at hsome
  obtain ⟨value, hvalue⟩ := Option.isSome_iff_exists.mp hsome
  exact ⟨_, row_of_some hvalue⟩

/-- Two views with one file have one name. -/
theorem Project.name_eq (h : Project store paths docs) {first second : String}
    {r : Lint.DocumentRow} (hfirst : RowAbout docs first r) (hsecond : RowAbout docs second r) :
    first = second := by
  obtain ⟨doc, hdoc, hname, rfl⟩ := hfirst
  obtain ⟨doc', hdoc', hname', heq⟩ := hsecond
  have hpath : doc.path = doc'.path := by
    injection heq with hfile
    injection hfile
  have hfile : first ++ ".view.lkml" = second ++ ".view.lkml" := by
    rw [← h.own doc hdoc first hname, hpath, h.own doc' hdoc' second hname']
  exact String.append_left_inj ".view.lkml" |>.mp hfile

/-- The nodes that end up marked are those of the orphans. -/
theorem mem_orphans_iff (docs : List Document) (node : String) :
    node ∈ (graphOf docs).tagOrphans.graph.orphans ↔ ∃ name, node = viewNode name ∧
      Orphan docs name := by
  obtain ⟨h, hplain⟩ := processAll_kinded docs Graph.empty empty_kinded empty_unmarked
  obtain ⟨_, _, hkinded, hkinds⟩ := h.tagAmong_candidates hplain (List.Perm.refl _)
  rw [tagOrphans_eq, graphOf, mem_orphans hkinded, hkinds node]
  constructor
  · intro hmarked
    split at hmarked
    · next hlost =>
        obtain ⟨hknown, ⟨name, rfl⟩, hreach⟩ := hlost
        exact ⟨name, rfl, hknown, hreach⟩
    · exact absurd rfl (hplain _ ((kind?_eq_some_iff h.distinct node .orphan).mp hmarked))
  · rintro ⟨name, rfl, hknown, hreach⟩
    exact if_pos ⟨hknown, viewNode_named name, hreach⟩

/-- Marking the orphans of documents has no fault. -/
theorem tagOrphans_fault (docs : List Document) : (graphOf docs).tagOrphans.fault = none := by
  obtain ⟨h, hplain⟩ := processAll_kinded docs Graph.empty empty_kinded empty_unmarked
  rw [tagOrphans_eq]
  exact (h.tagAmong_candidates hplain (List.Perm.refl _)).1

/-- What the rule gives at the end of a project. -/
theorem Project.finish_eq (h : Project store paths docs) :
    (start.processAll docs).2 = none ∧ (start.processAll docs).1.finish.2 =
      (graphOf docs).tagOrphans.graph.orphans.mapM (row (pathsOf docs)) := by
  rw [processAll_accepted docs start h.accepted]
  refine ⟨rfl, ?_⟩
  show (finish ⟨graphOf docs, pathsOf docs⟩).2 = _
  rw [finish]
  dsimp only
  rw [tagOrphans_fault docs]

/-- Rows about the right files take an orphan to a second one, with a longer name. -/
theorem Reports.next_orphan (h : Project store paths docs) {rows : List Lint.DocumentRow}
    (hrows : (graphOf docs).tagOrphans.graph.orphans.mapM (row (pathsOf docs)) = .ok rows)
    (hreports : Reports docs rows) {name : String} (hname : Orphan docs name) :
    Orphan docs (name ++ ".view") := by
  obtain ⟨lost, _, hlost, habout⟩ := hreports
  have hnode := (mem_orphans_iff docs _).mpr ⟨name, rfl, hname⟩
  obtain ⟨r, hr, hrow⟩ := exists_of_forall₂ (mapM_eq_ok.mp hrows) hnode
  obtain ⟨other, hother, hright⟩ := exists_of_forall₂ habout.flip hr
  have hsame : name ++ ".view" = other := h.name_eq (h.row_about hrow) hright
  exact (hlost _).mp (hsame ▸ hother)

/-- **NO ORPHANS, NO ROWS**: in a project where each view has a file of its own, the documents are
taken without a fault, and the rule then reports the orphans exactly if there are none.  It gives
rows at all exactly if the name of each orphan's node is itself the name of a view, and otherwise it
misses the node of an orphan. -/
theorem finish_reports_iff_no_orphan (h : Project store paths docs) :
    (start.processAll docs).2 = none ∧
    ((∃ rows, (start.processAll docs).1.finish.2 = .ok rows ∧ Reports docs rows) ↔
      ∀ name, ¬ Orphan docs name) ∧
    ((∃ rows, (start.processAll docs).1.finish.2 = .ok rows) ↔
      ∀ name, Orphan docs name → ∃ doc ∈ docs, viewNode name ∈ viewNames doc) ∧
    (∀ fault, (start.processAll docs).1.finish.2 = .error fault →
      ∃ name, Orphan docs name ∧ fault = .missingKey (viewNode name)) := by
  obtain ⟨htaken, hfinish⟩ := h.finish_eq
  rw [hfinish]
  refine ⟨htaken, ⟨?_, ?_⟩, ⟨?_, ?_⟩, ?_⟩
  · rintro ⟨rows, hrows, hreports⟩ name hname
    -- The orphan with the longest name has a successor with a longer one.
    obtain ⟨lost, _, hlost, _⟩ := id hreports
    obtain ⟨last, hlast, hlongest⟩ := lost.toFinset.exists_max_image String.length
      ⟨name, List.mem_toFinset.mpr ((hlost name).mpr hname)⟩
    have horphan : Orphan docs last := (hlost last).mp (List.mem_toFinset.mp hlast)
    have hnext := (hlost _).mpr (hreports.next_orphan h hrows horphan)
    have hlength := hlongest _ (List.mem_toFinset.mpr hnext)
    have hending : ".view".length = 5 := rfl
    rw [String.length_append] at hlength
    omega
  · intro hnone
    have hempty : (graphOf docs).tagOrphans.graph.orphans = [] := by
      refine List.eq_nil_iff_forall_not_mem.mpr fun node hnode => ?_
      obtain ⟨name, _, hname⟩ := (mem_orphans_iff docs node).mp hnode
      exact hnone name hname
    rw [hempty]
    exact ⟨[], rfl, [], List.nodup_nil, fun name => by simp [hnone name], .nil⟩
  · rintro ⟨rows, hrows⟩ name hname
    have hnode := (mem_orphans_iff docs _).mpr ⟨name, rfl, hname⟩
    obtain ⟨r, _, hrow⟩ := exists_of_forall₂ (mapM_eq_ok.mp hrows) hnode
    obtain ⟨doc, hdoc, hdeclares, _⟩ := h.row_about hrow
    exact ⟨doc, hdoc, hdeclares⟩
  · intro hdeclared
    cases hrows : (graphOf docs).tagOrphans.graph.orphans.mapM (row (pathsOf docs)) with
    | ok rows => exact ⟨rows, rfl⟩
    | error fault =>
        obtain ⟨node, hnode, hrow⟩ := mem_of_mapM_eq_error hrows
        obtain ⟨name, rfl, hname⟩ := (mem_orphans_iff docs node).mp hnode
        obtain ⟨doc, hdoc, hdeclares⟩ := hdeclared name hname
        obtain ⟨r, hr⟩ := h.row_of_declared hdoc hdeclares
        rw [hr] at hrow
        cases hrow
  · intro fault hrows
    obtain ⟨node, hnode, hrow⟩ := mem_of_mapM_eq_error hrows
    obtain ⟨name, rfl, hname⟩ := (mem_orphans_iff docs node).mp hnode
    refine ⟨name, hname, ?_⟩
    cases hget : Fields.get? (pathsOf docs) (viewNode name) with
    | none => rw [row_of_none hget] at hrow; exact (Except.error.inj hrow).symm
    | some value => rw [row_of_some hget] at hrow; cases hrow

/-- A store with a view and a model whose explore uses it. -/
def usedStore : Store :=
  ⟨[(["sales.view.lkml"], "view: sales \x7b\n\x7d\n"),
    (["shop.model.lkml"], "explore: sales \x7b\n\x7d\n")], []⟩

/-- The paths of its files. -/
def usedPaths : List String := ["sales.view.lkml", "shop.model.lkml"]

/-- The conditions on the documents of a project, apart from where they are read from. -/
def passes (docs : List Document) : Bool :=
  docs.all fun doc => (declareDocument doc : Trail (Addition String)).fault.isNone &&
    (viewNames doc).all fun name => Store.baseName doc.path == name ++ ".view.lkml"

/-- Documents that pass are a project. -/
theorem project_of_passes (hloaded : paths.mapM (Document.load store) = .ok docs)
    (h : passes docs = true) : Project store paths docs := by
  simp only [passes, List.all_eq_true, Bool.and_eq_true, Option.isNone_iff_eq_none,
    beq_iff_eq] at h
  exact ⟨hloaded, fun doc hdoc => (h doc hdoc).1, fun doc hdoc => (h doc hdoc).2⟩

/-- A project without orphans gets its report, which has no rows. -/
theorem used_reports : ∃ docs, Project usedStore usedPaths docs ∧ (∀ name, ¬ Orphan docs name) ∧
    ∃ rows, (start.processAll docs).1.finish.2 = .ok rows ∧ Reports docs rows := by
  have hsummary : ((usedPaths.mapM (Document.load usedStore)).toOption.map fun docs =>
      (passes docs, (graphOf docs).tagOrphans.graph.orphans)) = some (true, []) := by
    decide +kernel
  cases hloaded : usedPaths.mapM (Document.load usedStore) with
  | error fault => rw [hloaded] at hsummary; cases hsummary
  | ok docs =>
      rw [hloaded] at hsummary
      obtain ⟨hpasses, horphans⟩ := Prod.mk.inj (Option.some.inj hsummary)
      have hproject := project_of_passes hloaded hpasses
      have hnone : ∀ name, ¬ Orphan docs name := by
        intro name hname
        have hnode := (mem_orphans_iff docs _).mpr ⟨name, rfl, hname⟩
        rw [horphans] at hnode
        cases hnode
      exact ⟨docs, hproject, hnone, (finish_reports_iff_no_orphan hproject).2.1.mpr hnone⟩

/-- A store with one view. -/
def lostStore : Store := ⟨[(["lost.view.lkml"], "view: lost \x7b\n\x7d\n")], []⟩

/-- A project with one view and nothing else: the view is an orphan, and in place of a row there is
a fault about its node. -/
theorem lost_not_reported : ∃ docs, Project lostStore ["lost.view.lkml"] docs ∧
    docs.map viewNames = [["lost"]] ∧ Orphan docs "lost" ∧
    (start.processAll docs).1.finish.2 = .error (.missingKey "lost.view") := by
  have hsummary : ((["lost.view.lkml"].mapM (Document.load lostStore)).toOption.map fun docs =>
      (passes docs, docs.map viewNames, (graphOf docs).tagOrphans.graph.orphans,
        (Fields.get? (pathsOf docs) "lost.view").isNone)) =
      some (true, [["lost"]], ["lost.view"], true) := by
    decide +kernel
  cases hloaded : ["lost.view.lkml"].mapM (Document.load lostStore) with
  | error fault => rw [hloaded] at hsummary; cases hsummary
  | ok docs =>
      rw [hloaded] at hsummary
      simp only [Except.toOption, Option.map_some, Option.some.injEq, Prod.mk.injEq,
        Option.isNone_iff_eq_none] at hsummary
      obtain ⟨hpasses, hnames, horphans, hget⟩ := hsummary
      have hproject := project_of_passes hloaded hpasses
      refine ⟨docs, hproject, hnames, ?_, ?_⟩
      · have hnode : "lost.view" ∈ (graphOf docs).tagOrphans.graph.orphans := by
          rw [horphans]
          exact List.mem_cons_self
        obtain ⟨name, hname, horphan⟩ := (mem_orphans_iff docs _).mp hnode
        have hlost : "lost" = name := (String.append_left_inj ".view").mp hname
        exact hlost ▸ horphan
      · rw [hproject.finish_eq.2, horphans, List.mapM_cons, row_of_none hget]
        rfl

end Rule.NoOrphans

end LookmlProject
