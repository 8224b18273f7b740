import LookmlProject.Graph.Project
import LookmlProject.Proofs.Histories
import LookmlProject.Proofs.OrphanRows
import LookmlProject.Proofs.ValueNames

/-! # Every document that is found leaves a node

    A graph without nodes is taken for a project without documents.  That is right
    because no document is accepted without leaving a node:

    * a document with views leaves the node of a view, a model document its own, and
      any other the node of an explore (`stem_of_declared`);
    * patterns that can be searched add what their documents declare, one after the
      other (`declareGlobs_of_accepted`), and a node stays when others follow;
    * marking has no fault and takes no node away.

    So the fault of finding nothing says exactly that the patterns find nothing
    (`extract_fault_iff_nothing_found`).  A pattern that cannot be searched has a
    fault of its own, which is never that one (`Glob.search_only`). -/

namespace LookmlProject

/-! ## Patterns that cannot be searched -/

/-- The work has no fault but the given one. -/
def Only {α : Type} (fault : Fault) (result : Except Fault α) : Prop :=
  ∀ cause, result = .error cause → cause = fault

namespace Only

variable {α β : Type} {fault : Fault}

theorem ok (a : α) : Only fault (.ok a) := fun _ h => nomatch h

/-- Work in two steps has no other fault if neither step has. -/
theorem bind {result : Except Fault α} {next : α → Except Fault β} (h : Only fault result)
    (hnext : ∀ a, Only fault (next a)) : Only fault (result >>= next) := by
  intro cause hcause
  cases result with
  | error other => cases hcause; exact h cause rfl
  | ok a => exact hnext a cause hcause

/-- Work on each item has no other fault if the work on one has none. -/
theorem mapM {work : α → Except Fault β} (h : ∀ a, Only fault (work a)) (items : List α) :
    Only fault (items.mapM work) := by
  intro cause hcause
  obtain ⟨a, _, ha⟩ := mem_of_mapM_eq_error hcause
  exact h a cause ha

end Only

namespace Glob

/-- Reading a folder fails only if its path cannot be. -/
theorem namesMatching_only (store : Store) (folder pattern : String) (foldersOnly : Bool) :
    Only .badValue (namesMatching store folder pattern foldersOnly) := by
  unfold namesMatching
  dsimp only
  split
  · exact Only.ok _
  · intro cause h
    cases h
    rfl
  · exact Only.ok _

/-- A search fails only at a path that cannot be.  By induction on the parts of the pattern: the
folders are searched before the names in them. -/
theorem search_only (store : Store) : ∀ (fuel : Nat) (foldersOnly : Bool) (pattern : String),
    Only .badValue (search store fuel foldersOnly pattern) := by
  intro fuel
  induction fuel with
  | zero => exact fun _ _ => Only.ok _
  | succ fuel ih =>
      intro foldersOnly pattern
      rw [search]
      dsimp only
      split
      · split <;> exact Only.ok _
      split
      · exact namesMatching_only _ _ _ _
      have hfound : ∀ folders : List String, Only .badValue (do
          let found ← folders.mapM fun place => do
            let names ←
              if hasWildcards (Store.baseName pattern) then
                namesMatching store place (Store.baseName pattern) foldersOnly
              else pure (plainName store place (Store.baseName pattern))
            return names.map (Store.join place)
          return found.flatten) := by
        intro folders
        refine (Only.mapM (fun place => ?_) folders).bind fun _ => Only.ok _
        split
        · exact (namesMatching_only _ _ _ _).bind fun _ => Only.ok _
        · exact Only.ok _
      split
      · exact (ih _ _).bind hfound
      · exact (Only.ok [Store.folderOf pattern]).bind hfound

/-- An expansion fails only at a path that cannot be. -/
theorem expand_only (store : Store) (pattern : String) : Only .badValue (expand store pattern) := by
  intro cause h
  rw [expand] at h
  cases hsearch : search store (pattern.length + 1) false pattern with
  | error other =>
      rw [hsearch] at h
      cases h
      exact search_only store _ _ _ cause hsearch
  | ok paths => rw [hsearch] at h; cases h

end Glob

namespace Graph

open Lookml Value

/-! ## One document -/

/-- The nodes that stand for a document itself: those of its views and explores, and that of the
model if it is one. -/
inductive Stems (doc : Document) : String → NodeKind → Prop
  | view {view : Value} {name : String} : view ∈ members doc.views →
      view.lookup "name" = .ok (.text name) → Stems doc (viewNode name) .view
  | model : doc.kind = .model → Stems doc (modelNode doc.baseName) .model
  | explore {explore : Value} {name : String} : explore ∈ members doc.explores →
      explore.lookup "name" = .ok (.text name) → Stems doc (exploreNode name) .explore

/-- Work on the elements of a value that counts as true meets an element. -/
theorem exists_member {v : Value} {work : Value → Trail (Addition String)}
    {steps : List (Addition String)} (htruthy : v.truthy = true)
    (h : Trail.need v.elements (Trail.flatMap work) = .of steps) :
    ∃ item ∈ members v, ∃ part, work item = .of part ∧ part ⊆ steps := by
  obtain ⟨items, hitems, hsteps⟩ := Trail.need_eq_of.mp h
  cases items with
  | nil =>
      rw [truthy_of_no_elements hitems] at htruthy
      cases htruthy
  | cons item rest =>
      have hmem : item ∈ members v := by
        rw [members_eq hitems]
        exact List.mem_cons_self
      exact ⟨item, hmem, part_of_member h hmem⟩

/-- **A DOCUMENT LEAVES A NODE**: work on a document that comes to its end, whichever way it takes,
adds a node that stands for the document. -/
theorem stem_of_declared {doc : Document} {steps : List (Addition String)}
    (h : declareDocument doc = .of steps) :
    ∃ name kind, Stems doc name kind ∧ .node name kind ∈ steps := by
  rw [declareDocument] at h
  -- The ways through a document: its views, the model, its explores, or nothing, which is not
  -- accepted.
  split at h
  · next hviews =>
      obtain ⟨view, hmem, part, hpart, hsub⟩ := exists_member (truthy_views hviews) h
      obtain ⟨name, hname, hnode⟩ := declareView_steps hpart
      exact ⟨_, _, .view hmem hname, hsub hnode⟩
  · split at h
    · next hmodel =>
        obtain ⟨_, _, hnode, _, rfl⟩ := Trail.append_eq_of.mp h
        cases hnode
        exact ⟨_, _, .model hmodel, by simp⟩
    · split at h
      · next hexplores =>
          obtain ⟨explore, hmem, part, hpart, hsub⟩ := exists_member (truthy_explores hexplores) h
          obtain ⟨name, hname, hnode, _⟩ := declareExplore_steps hpart
          exact ⟨_, _, .explore hmem hname, hsub hnode⟩
      · cases h

/-! ## All documents -/

/-- A pattern finds a path. -/
def Finds (store : Store) (glob path : String) : Prop :=
  ∃ paths, Glob.expand store glob = .ok paths ∧ path ∈ paths

/-- A document is read from a path, and the work on it comes to its end. -/
def Accepted (store : Store) (path : String) (doc : Document) : Prop :=
  Document.load store path = .ok doc ∧
    (declareDocument doc : Trail (Addition String)).fault = none

/-- The documents that patterns find. -/
def FoundDocuments (store : Store) (globs : List String) (docs : List Document) : Prop :=
  ∀ doc, doc ∈ docs ↔ ∃ glob ∈ globs, ∃ path, Finds store glob path ∧ Accepted store path doc

/-- Every path that the patterns find has a document that is accepted. -/
def AllAccepted (store : Store) (globs : List String) : Prop :=
  ∀ glob ∈ globs, ∀ path, Finds store glob path → ∃ doc, Accepted store path doc

/-- Every pattern can be searched. -/
def Searchable (store : Store) (globs : List String) : Prop :=
  ∀ glob ∈ globs, ∃ paths, Glob.expand store glob = .ok paths

/-- No pattern finds a path. -/
def NothingFound (store : Store) (globs : List String) : Prop :=
  ∀ glob ∈ globs, Glob.expand store glob = .ok []

/-! Whether documents are found and accepted can be computed.  The order in which paths are found
does not matter for it. -/

/-- The paths that a pattern finds, in the order of the search. -/
def searched (store : Store) (glob : String) : Option (List String) :=
  (Glob.search store (glob.length + 1) false glob).toOption

theorem toOption_expand (store : Store) (glob : String) :
    (Glob.expand store glob).toOption = (searched store glob).map Text.sorted := by
  rw [Glob.expand, searched]
  cases Glob.search store (glob.length + 1) false glob <;> rfl

/-- What a pattern expands to are the paths of its search, sorted. -/
theorem expand_eq_ok {store : Store} {glob : String} {paths : List String} :
    Glob.expand store glob = .ok paths ↔ (searched store glob).map Text.sorted = some paths := by
  rw [← toOption_expand]
  cases Glob.expand store glob <;> simp [Except.toOption]

/-- A pattern finds the paths of its search. -/
theorem finds_iff {store : Store} {glob path : String} :
    Finds store glob path ↔ path ∈ (searched store glob).getD [] := by
  simp only [Finds, expand_eq_ok]
  cases searched store glob <;> simp [Text.sorted]

/-- Whether a path has a document that is accepted can be computed. -/
theorem exists_accepted_iff {store : Store} {path : String} :
    (∃ doc, Accepted store path doc) ↔ ((Document.load store path).toOption.any fun doc =>
      (declareDocument doc : Trail (Addition String)).fault.isNone) = true := by
  cases hload : Document.load store path <;> simp [Accepted, hload, Except.toOption]

instance (store : Store) (globs : List String) : Decidable (AllAccepted store globs) :=
  decidable_of_iff (∀ glob ∈ globs, ∀ path ∈ (searched store glob).getD [],
      ((Document.load store path).toOption.any fun doc =>
        (declareDocument doc : Trail (Addition String)).fault.isNone) = true) (by
    simp only [AllAccepted, finds_iff, exists_accepted_iff])

instance (store : Store) (globs : List String) : Decidable (Searchable store globs) :=
  decidable_of_iff (∀ glob ∈ globs, (searched store glob).isSome = true) (by
    simp only [Searchable, expand_eq_ok, Option.isSome_iff_exists, Option.map_eq_some_iff]
    simp)

instance (store : Store) (globs : List String) : Decidable (NothingFound store globs) :=
  decidable_of_iff (∀ glob ∈ globs, searched store glob = some []) (by
    have hsorted : ∀ paths, Text.sorted paths = [] ↔ paths = [] := fun paths => by
      rw [← List.length_eq_zero_iff, Text.sorted, List.length_mergeSort, List.length_eq_zero_iff]
    simp [NothingFound, expand_eq_ok, Option.map_eq_some_iff, hsorted])

/-- Patterns cannot all be searched exactly if one of them has a fault. -/
theorem not_searchable_iff {store : Store} {globs : List String} :
    ¬ Searchable store globs ↔ ∃ glob ∈ globs, ∃ fault, Glob.expand store glob = .error fault := by
  constructor
  · intro h
    obtain ⟨glob, hnot⟩ := not_forall.mp h
    obtain ⟨hglob, hnone⟩ := Classical.not_imp.mp hnot
    cases hexpand : Glob.expand store glob with
    | error fault => exact ⟨glob, hglob, fault, hexpand⟩
    | ok paths => exact absurd ⟨paths, hexpand⟩ hnone
  · rintro ⟨glob, hglob, fault, hfault⟩ h
    obtain ⟨paths, hpaths⟩ := h glob hglob
    cases hfault.symm.trans hpaths

/-- There is no document exactly if nothing is found. -/
theorem FoundDocuments.eq_nil_iff {store : Store} {globs : List String} {docs : List Document}
    (h : FoundDocuments store globs docs) (hsearch : Searchable store globs)
    (haccepted : AllAccepted store globs) : docs = [] ↔ NothingFound store globs := by
  constructor
  · rintro rfl glob hglob
    obtain ⟨paths, hpaths⟩ := hsearch glob hglob
    cases paths with
    | nil => exact hpaths
    | cons path rest =>
        have hfinds : Finds store glob path := ⟨_, hpaths, List.mem_cons_self⟩
        obtain ⟨doc, hdoc⟩ := haccepted glob hglob path hfinds
        cases (h doc).mpr ⟨glob, hglob, path, hfinds, hdoc⟩
  · intro hnothing
    refine List.eq_nil_iff_forall_not_mem.mpr fun doc hdoc => ?_
    obtain ⟨glob, hglob, path, ⟨paths, hpaths, hmem⟩, _⟩ := (h doc).mp hdoc
    rw [hnothing glob hglob] at hpaths
    cases hpaths
    cases hmem

/-- The documents of some paths, one after the other. -/
theorem declarePaths_of_accepted {store : Store} {paths : List String}
    (h : ∀ path ∈ paths, ∃ doc, Accepted store path doc) :
    ∃ docs, List.Forall₂ (Accepted store) paths docs ∧
      (Trail.flatMap (fun path => Trail.need (Document.load store path) declareDocument) paths :
        Trail (Addition String)) = .of (declared docs) := by
  induction paths with
  | nil => exact ⟨[], .nil, rfl⟩
  | cons path rest ih =>
      obtain ⟨doc, hload, hfault⟩ := h path List.mem_cons_self
      obtain ⟨docs, hdocs, hrest⟩ := ih fun other hother => h other (List.mem_cons_of_mem _ hother)
      refine ⟨doc :: docs, .cons ⟨hload, hfault⟩ hdocs, Trail.append_eq_of.mpr ?_⟩
      refine ⟨(declareDocument doc).steps, declared docs, ?_, hrest, rfl⟩
      show Trail.need (Document.load store path) declareDocument = _
      rw [hload]
      exact eq_of_accepted hfault

/-- One pattern that can be searched adds what its documents declare. -/
theorem declareGlob_of_accepted {store : Store} {glob : String} {paths : List String}
    (hpaths : Glob.expand store glob = .ok paths)
    (haccepted : ∀ path, Finds store glob path → ∃ doc, Accepted store path doc) :
    ∃ docs, (∀ doc, doc ∈ docs ↔ ∃ path, Finds store glob path ∧ Accepted store path doc) ∧
      (declareGlob store (.text glob) : Trail (Addition String)) = .of (declared docs) := by
  have hfinds : ∀ path, Finds store glob path ↔ path ∈ paths := by
    intro path
    constructor
    · rintro ⟨other, hother, hmem⟩
      rw [hpaths] at hother
      cases hother
      exact hmem
    · exact fun hmem => ⟨paths, hpaths, hmem⟩
  obtain ⟨docs, hdocs, hsteps⟩ := declarePaths_of_accepted fun path hpath =>
    haccepted path ((hfinds path).mpr hpath)
  refine ⟨docs, fun doc => ?_, ?_⟩
  · simp only [hfinds]
    constructor
    · intro hdoc
      exact exists_of_forall₂ hdocs.flip hdoc
    · rintro ⟨path, hpath, hload, _⟩
      obtain ⟨other, hother, hload', _⟩ := exists_of_forall₂ hdocs hpath
      rw [hload] at hload'
      cases hload'
      exact hother
  · show Trail.need (Glob.expand store glob) _ = _
    rw [hpaths]
    exact hsteps

/-- Patterns that can be searched add what the documents declare that they find. -/
theorem declareGlobs_of_accepted {store : Store} {globs : List String}
    (hsearch : Searchable store globs) (haccepted : AllAccepted store globs) :
    ∃ docs, FoundDocuments store globs docs ∧
      (Trail.flatMap (declareGlob store) (globs.map .text) : Trail (Addition String)) =
        .of (declared docs) := by
  induction globs with
  | nil => exact ⟨[], by simp [FoundDocuments], rfl⟩
  | cons glob rest ih =>
      obtain ⟨paths, hpaths⟩ := hsearch glob List.mem_cons_self
      obtain ⟨first, hfirst, hglob⟩ :=
        declareGlob_of_accepted hpaths (haccepted glob List.mem_cons_self)
      obtain ⟨second, hsecond, hrest⟩ := ih
        (fun other hother => hsearch other (List.mem_cons_of_mem _ hother))
        (fun other hother => haccepted other (List.mem_cons_of_mem _ hother))
      refine ⟨first ++ second, fun doc => ?_, Trail.append_eq_of.mpr ?_⟩
      · rw [List.mem_append, hfirst, hsecond]
        simp only [List.mem_cons, exists_eq_or_imp]
      · exact ⟨_, _, hglob, hrest, List.flatMap_append⟩

/-- A pattern that cannot be searched ends the work. -/
theorem declareGlobs_of_unsearchable {store : Store} {globs : List String}
    (haccepted : AllAccepted store globs)
    (h : ∃ glob ∈ globs, ∃ fault, Glob.expand store glob = .error fault) :
    (Trail.flatMap (declareGlob store) (globs.map .text) : Trail (Addition String)).fault =
      some .badValue := by
  induction globs with
  | nil => simp at h
  | cons glob rest ih =>
      show (declareGlob store (.text glob) ++ Trail.flatMap (declareGlob store) _ :
        Trail (Addition String)).fault = _
      -- The first pattern that cannot be searched ends the work; those before it are worked
      -- through.
      cases hexpand : Glob.expand store glob with
      | error fault =>
          have hstop : (declareGlob store (.text glob) : Trail (Addition String)) =
              Trail.stop .badValue := by
            show Trail.need (Glob.expand store glob) _ = _
            rw [hexpand, ← Glob.expand_only store glob fault hexpand]
            rfl
          rw [hstop]
          rfl
      | ok paths =>
          obtain ⟨docs, _, hglob⟩ :=
            declareGlob_of_accepted hexpand (haccepted glob List.mem_cons_self)
          rw [hglob]
          refine ih (fun other hother => haccepted other (List.mem_cons_of_mem _ hother)) ?_
          obtain ⟨other, hother, fault, hfault⟩ := h
          rcases List.mem_cons.mp hother with rfl | hother
          · rw [hexpand] at hfault
            cases hfault
          · exact ⟨other, hother, fault, hfault⟩

/-- A graph with a known name has nodes. -/
theorem known_ne_nil {graph : Graph String} {name : String} (h : graph.Known name) :
    graph.nodes ≠ [] := by
  intro hnil
  rw [Known, hnil] at h
  cases h

/-- Whatever accepted documents and a marking leave behind, in whatever order, has a node for each
of the documents. -/
theorem Outcome.stems {docs : List Document} {change : Change String} (h : Outcome docs change)
    (haccepted : ∀ doc ∈ docs, (declareDocument doc : Trail (Addition String)).fault = none) :
    change.fault = none ∧
      ∀ doc ∈ docs, ∃ name kind, Stems doc name kind ∧ change.graph.Is kind name := by
  obtain ⟨additions, order, hadditions, horder, rfl⟩ := h
  have hfits := fitsAll_declared docs Graph.empty
  obtain ⟨hkinded, hplain⟩ :=
    empty_kinded.addAll_of_mem_iff hfits (fun _ => hadditions.mem_iff)
  obtain ⟨hfault, hshape, hmarked, _⟩ :=
    hkinded.tagAmong_candidates (hplain empty_unmarked) horder
  -- The node that a document leaves is still known after the others, and marking keeps the names.
  refine ⟨hfault, fun doc hdoc => ?_⟩
  obtain ⟨name, kind, hstem, hnode⟩ := stem_of_declared (eq_of_accepted (haccepted doc hdoc))
  have hmem : .node name kind ∈ declared docs := List.mem_flatMap.mpr ⟨doc, hdoc, hnode⟩
  refine ⟨name, kind, hstem, (hmarked.is_iff kind name).mpr ⟨?_, ?_⟩⟩
  · rw [Known, hshape.names]
    exact (known_addAll name additions _).mpr (Or.inr ⟨kind, hadditions.mem_iff.mpr hmem⟩)
  · exact (node_of_fitsAll _ _ hfits hmem).1

/-! ## Extraction -/

/-- Patterns that can be searched: without documents, the fault of finding nothing; with some, what
they declare and a marking. -/
theorem extract_of_searchable {store : Store} {globs : List String}
    (hsearch : Searchable store globs) (haccepted : AllAccepted store globs) :
    ∃ docs, FoundDocuments store globs docs ∧
      (docs = [] → ((Graph.empty : Graph String).extract store (.list (globs.map .text))).fault =
        some (.noDocuments (Value.list (globs.map .text)).display)) ∧
      (docs ≠ [] →
        Outcome docs ((Graph.empty : Graph String).extract store (.list (globs.map .text)))) := by
  obtain ⟨docs, hdocs, hdeclared⟩ := declareGlobs_of_accepted hsearch haccepted
  have hfollow : (Graph.empty : Graph String).follow
      (declareGlobs store (.list (globs.map .text))) =
        ⟨Graph.empty.addAll (declared docs), none⟩ := by
    show (Graph.empty : Graph String).follow (Trail.flatMap (declareGlob store) _) = _
    rw [hdeclared]
    rfl
  refine ⟨docs, hdocs, ?_⟩
  simp only [extract, hfollow]
  constructor
  · rintro rfl
    rfl
  · intro hsome
    -- The node of a document is there, so the list of nodes is not empty.
    obtain ⟨doc, hdoc⟩ := List.exists_mem_of_ne_nil docs hsome
    obtain ⟨_, _, _, _, _, hfault⟩ := (hdocs doc).mp hdoc
    obtain ⟨name, kind, _, hnode⟩ := stem_of_declared (eq_of_accepted hfault)
    have hknown : ((Graph.empty : Graph String).addAll (declared docs)).Known name :=
      (known_addAll name _ _).mpr (Or.inr ⟨kind, List.mem_flatMap.mpr ⟨doc, hdoc, hnode⟩⟩)
    rw [if_neg (by simpa using known_ne_nil hknown), tagOrphans_eq]
    exact ⟨declared docs, _, List.Perm.refl _, List.Perm.refl _, rfl⟩

/-- Where a pattern cannot be searched, extraction has the fault of a path that cannot be. -/
theorem extract_of_unsearchable {store : Store} {globs : List String}
    (h : ¬ Searchable store globs) (haccepted : AllAccepted store globs) :
    ((Graph.empty : Graph String).extract store (.list (globs.map .text))).fault =
      some .badValue := by
  have hfault : ((Graph.empty : Graph String).follow
      (declareGlobs store (.list (globs.map .text)))).fault = some .badValue :=
    declareGlobs_of_unsearchable haccepted (not_searchable_iff.mp h)
  simp only [extract, hfault]

/-- The patterns declare the same for a graph with values as names. -/
theorem declareGlobs_asValues (store : Store) (globs : Value) :
    (declareGlobs store globs : Trail (Addition Value)) =
      (declareGlobs store globs).map Addition.asValues :=
  Trail.need_eq_map fun items => Trail.flatMap_eq_map (fun _ => Trail.need_eq_map fun paths =>
    Trail.flatMap_eq_map (fun _ => Trail.need_eq_map declareDocument_asValues) paths) items

/-- Marking orphans does the same to a graph with values as names. -/
theorem tagOrphans_asValues (graph : Graph String) :
    graph.asValues.tagOrphans = ⟨graph.tagOrphans.graph.asValues, graph.tagOrphans.fault⟩ := by
  have hnone : (graph.asValues.viewToExplore.findSome? fun edge => NodeName.graphFault? edge.1) =
      none := by
    refine List.findSome?_eq_none_iff.mpr fun edge hedge => ?_
    obtain ⟨edge, _, rfl⟩ := List.mem_map.mp hedge
    rfl
  rw [tagOrphans_eq, tagOrphans, hnone]
  show graph.asValues.tagAmong graph.asValues.candidates = _
  rw [candidates_asValues, tagAmong_asValues]

/-- Extraction does the same to a graph with values as names. -/
theorem extract_asValues (graph : Graph String) (store : Store) (globs : Value) :
    graph.asValues.extract store globs =
      ⟨(graph.extract store globs).graph.asValues, (graph.extract store globs).fault⟩ := by
  have hfollow : graph.asValues.follow (declareGlobs store globs) =
      ⟨(graph.follow (declareGlobs store globs)).graph.asValues,
        (graph.follow (declareGlobs store globs)).fault⟩ := by
    rw [follow, declareGlobs_asValues]
    show Change.mk (graph.asValues.addAll (List.map Addition.asValues _)) _ = _
    rw [addAll_asValues]
    rfl
  have hempty : ∀ other : Graph String, other.asValues.nodes.isEmpty = other.nodes.isEmpty :=
    fun other => List.isEmpty_map
  simp only [extract, hfollow]
  obtain ⟨after, fault⟩ := graph.follow (declareGlobs store globs)
  cases fault with
  | some fault => rfl
  | none =>
      simp only [hempty]
      split
      · rfl
      · exact tagOrphans_asValues after

/-- **NOTHING FOUND** is said of patterns, if every document that they find is accepted, exactly if
none of them finds a path.  A pattern that cannot be searched has the fault of a path that cannot
be.  If all can be searched and one finds a path, then whatever extraction leaves behind, in any
order of what the documents declare and of the candidates for marking, has no fault, and has for
every path that is found a node that stands for its document; a view may be marked as an orphan.
A graph with values as names ends in the same way. -/
theorem extract_fault_iff_nothing_found {store : Store} {globs : List String}
    (haccepted : AllAccepted store globs) :
    let patterns : Value := .list (globs.map .text)
    let change := (Graph.empty : Graph String).extract store patterns
    (change.fault = some (.noDocuments patterns.display) ↔ NothingFound store globs) ∧
    (¬ Searchable store globs → change.fault = some .badValue) ∧
    (Searchable store globs → ¬ NothingFound store globs →
      ∃ docs, Outcome docs change ∧ ∀ result, Outcome docs result →
        result.fault = none ∧ result.graph.nodes ≠ [] ∧
        ∀ glob ∈ globs, ∀ path, Finds store glob path → ∃ doc ∈ docs, ∃ name kind,
          Accepted store path doc ∧ Stems doc name kind ∧ result.graph.Is kind name) ∧
    (Graph.empty : Graph Value).extract store patterns = ⟨change.graph.asValues, change.fault⟩ := by
  intro patterns change
  have hstems : ∀ {docs : List Document}, FoundDocuments store globs docs →
      ∀ {result : Change String}, Outcome docs result → result.fault = none ∧
        ∀ doc ∈ docs, ∃ name kind, Stems doc name kind ∧ result.graph.Is kind name := by
    intro docs hdocs result houtcome
    refine houtcome.stems fun doc hdoc => ?_
    obtain ⟨_, _, _, _, _, hfault⟩ := (hdocs doc).mp hdoc
    exact hfault
  refine ⟨?_, fun h => extract_of_unsearchable h haccepted, fun hsearch hsome => ?_,
    extract_asValues Graph.empty store patterns⟩
  · by_cases hsearch : Searchable store globs
    · obtain ⟨docs, hdocs, hnone, houtcome⟩ := extract_of_searchable hsearch haccepted
      rw [← hdocs.eq_nil_iff hsearch haccepted]
      refine ⟨fun hfault => not_not.mp fun hsome => ?_, hnone⟩
      cases hfault.symm.trans (hstems hdocs (houtcome hsome)).1
    · refine iff_of_false (fun hfault => ?_) fun hnothing => ?_
      · cases hfault.symm.trans (extract_of_unsearchable hsearch haccepted)
      · exact hsearch fun glob hglob => ⟨[], hnothing glob hglob⟩
  · obtain ⟨docs, hdocs, _, houtcome⟩ := extract_of_searchable hsearch haccepted
    have hne : docs ≠ [] := mt (hdocs.eq_nil_iff hsearch haccepted).mp hsome
    refine ⟨docs, houtcome hne, fun result hresult => ?_⟩
    obtain ⟨hfault, hnodes⟩ := hstems hdocs hresult
    refine ⟨hfault, ?_, fun glob hglob path hpath => ?_⟩
    · obtain ⟨doc, hdoc⟩ := List.exists_mem_of_ne_nil docs hne
      obtain ⟨name, kind, _, actual, hactual, _⟩ := hnodes doc hdoc
      intro hnil
      rw [kind?, hnil] at hactual
      cases hactual
    · obtain ⟨doc, hdoc⟩ := haccepted glob hglob path hpath
      have hmem := (hdocs doc).mpr ⟨glob, hglob, path, hpath, hdoc⟩
      obtain ⟨name, kind, hstem, his⟩ := hnodes doc hmem
      exact ⟨doc, hmem, name, kind, hdoc, hstem, his⟩

/-- A model without explores, an explore in a folder and a view that no explore uses. -/
def threeFiles : Store :=
  ⟨[(["bare.model.lkml"], "label: \"no explores\"\n"),
    (["d", "sales.explore.lkml"], "explore: sales \x7b\n  view_name: orders\n\x7d\n"),
    (["lost.view.lkml"], "view: lost \x7b\n\x7d\n")], [["d"]]⟩

/-- Three patterns of which two find documents leave a node for the model, which has nothing else in
it; a pattern that finds none has the fault. -/
theorem threeFiles_extracted :
    (AllAccepted threeFiles ["*.lkml", "d/*", "none*"] ∧
      ∃ docs result, Outcome docs result ∧ result.fault = none ∧ result.graph.nodes ≠ [] ∧
        ∃ doc ∈ docs, ∃ name kind, Accepted threeFiles "bare.model.lkml" doc ∧
          Stems doc name kind ∧ result.graph.Is kind name) ∧
    (AllAccepted threeFiles ["none*"] ∧
      ((Graph.empty : Graph String).extract threeFiles (.list [.text "none*"])).fault =
        some (.noDocuments "['none*']")) := by
  have haccepted : AllAccepted threeFiles ["*.lkml", "d/*", "none*"] := by decide +kernel
  have hsearch : Searchable threeFiles ["*.lkml", "d/*", "none*"] := by decide +kernel
  have hsome : ¬ NothingFound threeFiles ["*.lkml", "d/*", "none*"] := by decide +kernel
  have hfinds : Finds threeFiles "*.lkml" "bare.model.lkml" := by
    rw [finds_iff]
    decide +kernel
  have hnone : AllAccepted threeFiles ["none*"] := by decide +kernel
  have hnothing : NothingFound threeFiles ["none*"] := by decide +kernel
  constructor
  · obtain ⟨docs, houtcome, hstems⟩ :=
      (extract_fault_iff_nothing_found haccepted).2.2.1 hsearch hsome
    obtain ⟨hfault, hnodes, hpaths⟩ := hstems _ houtcome
    exact ⟨haccepted, docs, _, houtcome, hfault, hnodes, hpaths _ List.mem_cons_self _ hfinds⟩
  · exact ⟨hnone, (extract_fault_iff_nothing_found hnone).1.mpr hnothing⟩

end Graph

end LookmlProject
