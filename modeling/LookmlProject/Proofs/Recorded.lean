import LookmlProject.Proofs.Members
import LookmlProject.Proofs.Unordered

/-! # Which declarations of a document are recorded

    A document may declare views and explores, and a model document stands for a
    model besides.  `Recorded` says that the graph has all of it: nodes for the
    views, nodes for the explores with an edge from each view that they name, and
    the model with an edge from each explore.  The route:

    * a trail that comes to its end leaves what each of its parts leaves
      (`Trail.append_eq_of`), so the additions of a view or an explore are read
      off its declaration (`declareView_steps`, `declareExplore_steps`);
    * a node that is added keeps its kind, as no other addition of the document
      gives its name another one (`kind?_addAll_of_mem`);
    * the work on a document takes one of three ways, and the way of a document
      with views adds views only (`steps_amongViews`).

    So a document with views loses its explores and its model, and nothing is lost
    of any other document (`recorded_unless_mixed`). -/

namespace LookmlProject.Graph

open Lookml Value

/-! ## What a document declares -/

/-- The view that a join names: the one given by `from`, or else the one of its own name. -/
inductive JoinNames (join : Value) : String → Prop
  | source {view : String} : join.lookup "from" = .ok (.text view) → JoinNames join view
  | own {view : String} : join.has "from" = .ok false →
      join.lookup "name" = .ok (.text view) → JoinNames join view

/-- The views that an explore names: the one given by `from`, or else by `view_name`, or else the
one of its own name if it extends no other explore; and those of its joins. -/
inductive Names (explore : Value) : String → Prop
  | source {view : String} : explore.lookup "from" = .ok (.text view) → Names explore view
  | viewName {view : String} : explore.has "from" = .ok false →
      explore.lookup "view_name" = .ok (.text view) → Names explore view
  | own {view : String} : explore.has "from" = .ok false → explore.has "view_name" = .ok false →
      explore.has "extends" = .ok false → explore.lookup "name" = .ok (.text view) →
      Names explore view
  | join {view : String} {joins join : Value} : explore.lookup "joins" = .ok joins →
      join ∈ members joins → JoinNames join view → Names explore view

/-- A view of a document is a node. -/
def ViewRecorded (graph : Graph String) (view : Value) : Prop :=
  ∃ name, view.lookup "name" = .ok (.text name) ∧ graph.kind? (viewNode name) = some .view

/-- An explore of a document is a node with an edge from each view that it names, and with an edge
to its model if it has one. -/
def ExploreRecorded (graph : Graph String) (model : Option String) (explore : Value) : Prop :=
  ∃ name, explore.lookup "name" = .ok (.text name) ∧
    graph.kind? (exploreNode name) = some .explore ∧
    (∀ view, Names explore view → (viewNode view, exploreNode name) ∈ graph.viewToExplore) ∧
    ∀ m ∈ model, (exploreNode name, m) ∈ graph.exploreToModel

/-- The model that a document stands for. -/
def modelOf (doc : Document) : Option String :=
  if doc.kind = .model then some (modelNode doc.baseName) else none

/-- The graph has all that a document declares. -/
structure Recorded (graph : Graph String) (doc : Document) : Prop where
  views : ∀ view ∈ members doc.views, ViewRecorded graph view
  explores : ∀ explore ∈ members doc.explores, ExploreRecorded graph (modelOf doc) explore
  model : ∀ m ∈ modelOf doc, graph.kind? m = some .model

/-- A document with views that has explores as well or stands for a model. -/
def Mixed (doc : Document) : Prop :=
  doc.hasViews = true ∧ (doc.kind = .model ∨ members doc.explores ≠ [])

/-! ## Additions of one declaration -/

/-- What is under a key that is there adds its part. -/
theorem underKey_present {declaration value : Value} {key : String}
    {adds : Value → Trail (Addition String)} {otherwise : Trail (Addition String)}
    (h : declaration.lookup key = .ok value) :
    underKey declaration key adds otherwise = adds value := by
  rw [underKey, has_of_lookup h]
  show Trail.need (declaration.lookup key) adds = _
  rw [h]
  rfl

theorem underKey_absent {declaration : Value} {key : String}
    {adds : Value → Trail (Addition String)} {otherwise : Trail (Addition String)}
    (h : declaration.has key = .ok false) :
    underKey declaration key adds otherwise = otherwise := by
  rw [underKey, h]
  rfl

theorem edge_mem_viewIn (target view : String) :
    .edge .viewToExplore (viewNode view) target ∈ viewIn target view := by
  simp [viewIn]

/-- The additions of a view: its own node is among them. -/
theorem declareView_steps {view : Value} {steps : List (Addition String)}
    (h : declareView view = .of steps) :
    ∃ name, view.lookup "name" = .ok (.text name) ∧ .node (viewNode name) .view ∈ steps := by
  obtain ⟨name, hname, h⟩ := Trail.need_eq_of.mp h
  obtain ⟨value, hlookup, htext⟩ := bind_eq_ok.mp hname
  rw [asText_eq_ok htext] at hlookup
  obtain ⟨_, _, hfirst, _, rfl⟩ := Trail.append_eq_of.mp h
  obtain ⟨_, _, hnode, _, rfl⟩ := Trail.append_eq_of.mp hfirst
  cases hnode
  exact ⟨name, hlookup, by simp⟩

theorem declareJoin_steps {target view : String} {join : Value} {steps : List (Addition String)}
    (h : declareJoin target join = .of steps) (hnames : JoinNames join view) :
    .edge .viewToExplore (viewNode view) target ∈ steps := by
  obtain ⟨given, hgiven, h⟩ := Trail.need_eq_of.mp h
  obtain ⟨name, hname, h⟩ := Trail.need_eq_of.mp h
  obtain ⟨value, hlookup, htext⟩ := bind_eq_ok.mp hname
  rw [asText_eq_ok htext] at hlookup
  have heq : view = name := by
    cases hnames with
    | source hview =>
        rw [has_of_lookup hview] at hgiven
        cases hgiven
        rw [if_pos rfl, hview] at hlookup
        cases hlookup
        rfl
    | own habsent hview =>
        rw [habsent] at hgiven
        cases hgiven
        rw [if_neg Bool.false_ne_true, hview] at hlookup
        cases hlookup
        rfl
  cases h
  rw [heq]
  exact edge_mem_viewIn target name

theorem declareBase_steps {target view : String} {explore : Value}
    {steps : List (Addition String)} (h : declareBase target explore = .of steps) :
    (explore.lookup "from" = .ok (.text view) ∨
      explore.has "from" = .ok false ∧ explore.lookup "view_name" = .ok (.text view) ∨
      explore.has "from" = .ok false ∧ explore.has "view_name" = .ok false ∧
        explore.has "extends" = .ok false ∧ explore.lookup "name" = .ok (.text view)) →
    .edge .viewToExplore (viewNode view) target ∈ steps := by
  rintro (hview | ⟨hsource, hview⟩ | ⟨hsource, hviewName, hextends, hview⟩)
  · rw [declareBase, underKey_present hview] at h
    cases h
    exact edge_mem_viewIn target view
  · rw [declareBase, underKey_absent hsource, underKey_present hview] at h
    cases h
    exact edge_mem_viewIn target view
  · rw [declareBase, underKey_absent hsource, underKey_absent hviewName, hextends] at h
    change Trail.need (explore.lookup "name") _ = _ at h
    rw [hview] at h
    cases h
    exact edge_mem_viewIn target view

/-- **THE ADDITIONS OF AN EXPLORE**: its own node, the edge to its model, and an edge from each view
that it names. -/
theorem declareExplore_steps {model : Option String} {explore : Value}
    {steps : List (Addition String)} (h : declareExplore model explore = .of steps) :
    ∃ name, explore.lookup "name" = .ok (.text name) ∧
      .node (exploreNode name) .explore ∈ steps ∧
      (∀ m ∈ model, .edge .exploreToModel (exploreNode name) m ∈ steps) ∧
      ∀ view, Names explore view →
        .edge .viewToExplore (viewNode view) (exploreNode name) ∈ steps := by
  obtain ⟨name, hname, hparts⟩ := Trail.need_eq_of.mp h
  obtain ⟨value, hlookup, htext⟩ := bind_eq_ok.mp hname
  rw [asText_eq_ok htext] at hlookup
  -- The five parts of the trail, from the last to the first.
  obtain ⟨_, joins, hfour, hjoins, rfl⟩ := Trail.append_eq_of.mp hparts
  obtain ⟨_, base, hthree, hbase, rfl⟩ := Trail.append_eq_of.mp hfour
  obtain ⟨_, parents, htwo, hparents, rfl⟩ := Trail.append_eq_of.mp hthree
  obtain ⟨_, link, hnode, hlink, rfl⟩ := Trail.append_eq_of.mp htwo
  cases hnode
  refine ⟨name, hlookup, by simp, ?_, ?_⟩
  · rintro m ⟨⟩
    cases hlink
    simp
  · intro view hnames
    have hfirst : ∀ {a : Addition String}, a ∈ base →
        a ∈ [.node (exploreNode name) .explore] ++ link ++ parents ++ base ++ joins := by
      intro a ha
      simp [ha]
    cases hnames with
    | source hview => exact hfirst (declareBase_steps hbase (.inl hview))
    | viewName hsource hview =>
        exact hfirst (declareBase_steps hbase (.inr (.inl ⟨hsource, hview⟩)))
    | own hsource hviewName hextends hview =>
        exact hfirst (declareBase_steps hbase (.inr (.inr ⟨hsource, hviewName, hextends, hview⟩)))
    | join hvalue hmem hjoin =>
        rw [underKey_present hvalue] at hjoins
        obtain ⟨items, hitems, hjoins⟩ := Trail.need_eq_of.mp hjoins
        rw [members_eq hitems] at hmem
        obtain ⟨part, hpart, hsub⟩ := Trail.flatMap_eq_of hjoins _ hmem
        exact List.mem_append_right _ (hsub (declareJoin_steps hpart hjoin))

/-! ## Nodes and edges that additions leave -/

/-- A node that is added has its kind at the end, if no addition says another. -/
theorem kind?_addAll_of_mem {name : String} {kind : NodeKind} (additions : List (Addition String)) :
    ∀ graph : Graph String, (∀ other, .node name other ∈ additions → other = kind) →
      graph.kind? name = some kind ∨ .node name kind ∈ additions →
      (graph.addAll additions).kind? name = some kind := by
  induction additions with
  | nil =>
      rintro graph _ (hkind | hmem)
      · exact hkind
      · cases hmem
  | cons addition rest ih =>
      intro graph hsame hkind
      show ((graph.add addition).addAll rest).kind? name = some kind
      refine ih _ (fun other hmem => hsame other (List.mem_cons_of_mem _ hmem)) ?_
      cases addition with
      | node other k =>
          rw [add, kind?_addNode]
          by_cases hname : name = other
          · subst hname
            left
            rw [beq_self_eq_true, if_pos rfl, hsame k List.mem_cons_self]
          · rw [beq_false_of_ne hname, if_neg Bool.false_ne_true]
            rcases hkind with hkind | hmem
            · exact Or.inl hkind
            · rcases List.mem_cons.mp hmem with heq | hmem
              · exact absurd (Addition.node.inj heq).1 hname
              · exact Or.inr hmem
      | edge edgeKind source target =>
          rcases hkind with hkind | hmem
          · left
            rw [kind?, add, nodes_addEdge]
            exact hkind
          · exact Or.inr (by simpa using hmem)

/-- A node that a document adds has the kind that it is added with. -/
theorem kind?_process {doc : Document} {steps : List (Addition String)}
    (h : declareDocument doc = .of steps) (graph : Graph String) {name : String} {kind : NodeKind}
    (hmem : .node name kind ∈ steps) : (graph.process doc).graph.kind? name = some kind := by
  have hfits := (declareDocument_sound doc graph (fun _ hname => nomatch hname)).1
  rw [h] at hfits
  obtain ⟨hnamed, hkind⟩ := node_of_fitsAll steps graph hfits hmem
  rw [process, follow, h]
  refine kind?_addAll_of_mem steps graph (fun other hother => ?_) (Or.inr hmem)
  obtain ⟨hnamed', hother'⟩ := node_of_fitsAll steps graph hfits hother
  exact NodeKind.eq_of_ending (hnamed'.ending_eq hnamed) hother' hkind

theorem edge_mem_process {doc : Document} {steps : List (Addition String)}
    (h : declareDocument doc = .of steps) (graph : Graph String) (kind : EdgeKind)
    {source target : String} (hmem : .edge kind source target ∈ steps) :
    (source, target) ∈ (graph.process doc).graph.edgesOf kind := by
  rw [process, follow, h]
  show _ ∈ (graph.addAll steps).edgesOf kind
  rw [edgesOf_addAll, List.mem_append, mem_edgesIn]
  exact Or.inr hmem

theorem viewRecorded_of_steps {doc : Document} {steps part : List (Addition String)}
    (h : declareDocument doc = .of steps) (graph : Graph String) {view : Value}
    (hview : declareView view = .of part) (hsub : part ⊆ steps) :
    ViewRecorded (graph.process doc).graph view := by
  obtain ⟨name, hlookup, hnode⟩ := declareView_steps hview
  exact ⟨name, hlookup, kind?_process h graph (hsub hnode)⟩

theorem exploreRecorded_of_steps {doc : Document} {steps part : List (Addition String)}
    (h : declareDocument doc = .of steps) (graph : Graph String) {model : Option String}
    {explore : Value} (hexplore : declareExplore model explore = .of part) (hsub : part ⊆ steps) :
    ExploreRecorded (graph.process doc).graph model explore := by
  obtain ⟨name, hlookup, hnode, hlink, hnames⟩ := declareExplore_steps hexplore
  refine ⟨name, hlookup, kind?_process h graph (hsub hnode), ?_, ?_⟩
  · intro view hview
    exact edge_mem_process h graph .viewToExplore (hsub (hnames view hview))
  · intro m hm
    exact edge_mem_process h graph .exploreToModel (hsub (hlink m hm))

/-- Work on a document that is accepted comes to its end. -/
theorem eq_of_accepted {doc : Document}
    (h : (declareDocument doc : Trail (Addition String)).fault = none) :
    declareDocument doc = Trail.of (declareDocument doc : Trail (Addition String)).steps := by
  rw [Trail.of, ← h]

/-! ## The three ways -/

/-- The members of a value on which work comes to its end are worked on one by one. -/
theorem part_of_member {steps : List (Addition String)} {v item : Value}
    {work : Value → Trail (Addition String)}
    (h : Trail.need v.elements (Trail.flatMap work) = .of steps) (hitem : item ∈ members v) :
    ∃ part, work item = .of part ∧ part ⊆ steps := by
  obtain ⟨items, hitems, h⟩ := Trail.need_eq_of.mp h
  rw [members_eq hitems] at hitem
  exact Trail.flatMap_eq_of h item hitem

/-- A document with views records them. -/
theorem recorded_views {doc : Document} {steps : List (Addition String)}
    (h : declareDocument doc = .of steps) (graph : Graph String) :
    ∀ view ∈ members doc.views, ViewRecorded (graph.process doc).graph view := by
  intro view hview
  by_cases hviews : doc.hasViews = true
  · have hway := h
    rw [declareDocument, if_pos hviews] at hway
    obtain ⟨part, hpart, hsub⟩ := part_of_member hway hview
    exact viewRecorded_of_steps h graph hpart hsub
  · have hnone : members doc.views = [] :=
      members_of_not_present (Bool.eq_false_iff.mpr hviews)
    rw [hnone] at hview
    cases hview

/-- A document without views records its explores and its model. -/
theorem recorded_without_views {doc : Document} {steps : List (Addition String)}
    (h : declareDocument doc = .of steps) (hviews : doc.hasViews = false) (graph : Graph String) :
    Recorded (graph.process doc).graph doc := by
  have hnone : doc.hasExplores = false → members doc.explores = [] := members_of_not_present
  have hway := h
  rw [declareDocument, if_neg (by simp [hviews])] at hway
  by_cases hmodel : doc.kind = .model
  · have hmodelOf : modelOf doc = some (modelNode doc.baseName) := if_pos hmodel
    rw [if_pos hmodel] at hway
    obtain ⟨node, links, hnode, hlinks, rfl⟩ := Trail.append_eq_of.mp hway
    cases hnode
    refine ⟨recorded_views h graph, ?_, ?_⟩
    · intro explore hexplore
      cases hexplores : doc.hasExplores with
      | false => rw [hnone hexplores] at hexplore; cases hexplore
      | true =>
          rw [hexplores, if_pos rfl] at hlinks
          obtain ⟨part, hpart, hsub⟩ := part_of_member hlinks hexplore
          rw [hmodelOf]
          exact exploreRecorded_of_steps h graph hpart
            fun a ha => List.mem_append_right _ (hsub ha)
    · rw [hmodelOf]
      rintro m ⟨⟩
      exact kind?_process h graph (by simp)
  · have hmodelOf : modelOf doc = none := if_neg hmodel
    rw [if_neg hmodel] at hway
    refine ⟨recorded_views h graph, ?_, ?_⟩
    · intro explore hexplore
      cases hexplores : doc.hasExplores with
      | false => rw [hnone hexplores] at hexplore; cases hexplore
      | true =>
          rw [hexplores, if_pos rfl] at hway
          obtain ⟨part, hpart, hsub⟩ := part_of_member hway hexplore
          rw [hmodelOf]
          exact exploreRecorded_of_steps h graph hpart hsub
    · rw [hmodelOf]
      rintro m ⟨⟩

/-- An addition of views only: a view, or an edge between two of them. -/
def AmongViews : Addition String → Prop
  | .node _ kind => kind = .view
  | .edge kind _ _ => kind = .viewToView

theorem viewBefore_amongViews (target name : String) :
    ∀ a ∈ viewBefore target name, AmongViews a := by
  intro a ha
  rcases List.mem_cons.mp ha with rfl | ha
  · rfl
  · rw [List.mem_singleton.mp ha]
    rfl

theorem declareView_amongViews (view : Value) : Trail.Each AmongViews (declareView view) := by
  refine Trail.Each.need fun name => Trail.Each.append (Trail.Each.append ?_ ?_) ?_
  · intro a ha
    rw [List.mem_singleton.mp ha]
    rfl
  · refine Trail.Each.need fun sql => ?_
    split
    · refine Trail.Each.need fun text a ha => ?_
      obtain ⟨name', _, hname'⟩ := List.mem_flatMap.mp ha
      exact viewBefore_amongViews _ name' a hname'
    · exact Trail.Each.nil
  · refine Trail.Each.need fun given => ?_
    cases given with
    | false => exact Trail.Each.nil
    | true =>
        refine Trail.Each.need fun parents => Trail.Each.need fun names => ?_
        refine Trail.Each.flatMap (fun parent => Trail.Each.need fun s => ?_) names
        exact viewBefore_amongViews _ s

/-- A document with views adds views and edges between them, whatever else it declares. -/
theorem steps_amongViews {doc : Document} (hviews : doc.hasViews = true) :
    ∀ a ∈ (declareDocument doc : Trail (Addition String)).steps, AmongViews a := by
  rw [declareDocument, if_pos hviews]
  exact Trail.Each.need fun views => Trail.Each.flatMap declareView_amongViews views

theorem edgesOf_process_of_views {doc : Document} (hviews : doc.hasViews = true)
    (graph : Graph String) {kind : EdgeKind} (hkind : kind ≠ .viewToView) :
    (graph.process doc).graph.edgesOf kind = graph.edgesOf kind := by
  have hnone : edgesIn kind (declareDocument doc : Trail (Addition String)).steps = [] := by
    refine List.eq_nil_iff_forall_not_mem.mpr fun edge hedge => ?_
    exact hkind (steps_amongViews hviews _ ((mem_edgesIn kind _ edge).mp hedge))
  show (graph.addAll _).edgesOf kind = _
  rw [edgesOf_addAll, hnone, List.append_nil]

/-- A fresh graph has only views after a document with views. -/
theorem kind?_process_of_views {doc : Document} (hviews : doc.hasViews = true) {name : String}
    {kind : NodeKind}
    (h : ((Graph.empty : Graph String).process doc).graph.kind? name = some kind) :
    kind = .view := by
  have hdistinct : (((Graph.empty : Graph String).process doc).graph.nodes.map Prod.fst).Nodup :=
    distinct_addAll _ _ List.nodup_nil
  rw [kind?_eq_some_iff hdistinct] at h
  rcases mem_nodes_addAll _ _ h with hold | hadded
  · cases hold
  · exact steps_amongViews hviews _ hadded

theorem Mixed.not_recorded {doc : Document} (h : Mixed doc) :
    ¬ Recorded ((Graph.empty : Graph String).process doc).graph doc := by
  intro hrecorded
  obtain ⟨hviews, hmodel | hexplores⟩ := h
  · exact nomatch kind?_process_of_views hviews (hrecorded.model _ (if_pos hmodel))
  · obtain ⟨explore, hexplore⟩ := List.exists_mem_of_ne_nil _ hexplores
    obtain ⟨name, _, hkind, _⟩ := hrecorded.explores explore hexplore
    exact nomatch kind?_process_of_views hviews hkind

/-- A document with views that is not mixed declares nothing else. -/
theorem recorded_of_only_views {doc : Document} {steps : List (Addition String)}
    (h : declareDocument doc = .of steps) (hmodel : doc.kind ≠ .model)
    (hexplores : members doc.explores = []) (graph : Graph String) :
    Recorded (graph.process doc).graph doc where
  views := recorded_views h graph
  explores := by
    intro explore hexplore
    rw [hexplores] at hexplore
    cases hexplore
  model := by
    rw [modelOf, if_neg hmodel]
    rintro m ⟨⟩

/-- **WHAT IS RECORDED**: of a document that is accepted, the views are recorded in every graph; all
that it declares is recorded in every graph unless it is mixed; and a mixed document leaves the
edges to explores and to models as they were, and in a fresh graph it is not recorded. -/
theorem recorded_unless_mixed {doc : Document}
    (haccepted : (declareDocument doc : Trail (Addition String)).fault = none) :
    (∀ graph : Graph String, (graph.process doc).fault = none ∧
      ∀ view ∈ members doc.views, ViewRecorded (graph.process doc).graph view) ∧
    (¬ Mixed doc → ∀ graph : Graph String, Recorded (graph.process doc).graph doc) ∧
    (Mixed doc →
      (∀ (graph : Graph String) (kind : EdgeKind), kind ≠ .viewToView →
        (graph.process doc).graph.edgesOf kind = graph.edgesOf kind) ∧
      ¬ Recorded ((Graph.empty : Graph String).process doc).graph doc) := by
  have hsteps := eq_of_accepted haccepted
  refine ⟨fun graph => ⟨haccepted, recorded_views hsteps graph⟩, fun hplain graph => ?_,
    fun hmixed => ⟨fun graph kind => edgesOf_process_of_views hmixed.1 graph, hmixed.not_recorded⟩⟩
  cases hviews : doc.hasViews with
  | false => exact recorded_without_views hsteps hviews graph
  | true =>
      have hmodel : doc.kind ≠ .model := fun hmodel => hplain ⟨hviews, Or.inl hmodel⟩
      have hexplores : members doc.explores = [] :=
        not_not.mp fun hexplores => hplain ⟨hviews, Or.inr hexplores⟩
      exact recorded_of_only_views hsteps hmodel hexplores graph

/-- A model with an explore that takes its view from `from` and joins two more. -/
def joined : Document :=
  ⟨"shop.model.lkml", "shop.model.lkml", "shop", .model,
    [("explores", .list [.record [("from", .text "sales"), ("name", .text "deals"),
      ("joins", .list [.record [("name", .text "orders")],
        .record [("from", .text "people"), ("name", .text "buyers")]])]])]⟩

theorem joined_recorded :
    (declareDocument joined : Trail (Addition String)).fault = none ∧ ¬ Mixed joined ∧
      Recorded ((Graph.empty : Graph String).process joined).graph joined := by
  have haccepted : (declareDocument joined : Trail (Addition String)).fault = none := by decide
  have hplain : ¬ Mixed joined := fun hmixed => nomatch hmixed.1
  exact ⟨haccepted, hplain, (recorded_unless_mixed haccepted).2.1 hplain _⟩

/-- A store with a model file that has an explore and a view. -/
def mixedStore : Store :=
  ⟨[(["shop.model.lkml"], "explore: sales \x7b\n\x7d\nview: sales \x7b\n\x7d\n")], []⟩

/-- A model file with an explore and a view is read and accepted, but neither the explore nor the
model is recorded. -/
theorem mixed_loses_explore :
    ∃ doc, Document.load mixedStore "shop.model.lkml" = .ok doc ∧
      (declareDocument doc : Trail (Addition String)).fault = none ∧
      (members doc.explores).length = 1 ∧
      ((Graph.empty : Graph String).process doc).graph.nodes = [("sales.view", .view)] ∧
      ¬ Recorded ((Graph.empty : Graph String).process doc).graph doc := by
  have hsummary : ((Document.load mixedStore "shop.model.lkml").toOption.map fun doc =>
      (decide (doc.hasViews = true ∧ doc.kind = .model),
        (declareDocument doc : Trail (Addition String)).fault.isNone,
        (members doc.explores).length,
        ((Graph.empty : Graph String).process doc).graph.nodes)) =
      some (true, true, 1, [("sales.view", .view)]) := by
    decide +kernel
  cases hload : Document.load mixedStore "shop.model.lkml" with
  | error fault => rw [hload] at hsummary; cases hsummary
  | ok doc =>
      rw [hload] at hsummary
      simp only [Except.toOption, Option.map_some, Option.some.injEq, Prod.mk.injEq,
        Option.isNone_iff_eq_none, decide_eq_true_eq] at hsummary
      obtain ⟨⟨hviews, hkind⟩, haccepted, hexplores, hnodes⟩ := hsummary
      have hmixed : Mixed doc := ⟨hviews, Or.inl hkind⟩
      exact ⟨doc, rfl, haccepted, hexplores, hnodes, hmixed.not_recorded⟩

end LookmlProject.Graph
