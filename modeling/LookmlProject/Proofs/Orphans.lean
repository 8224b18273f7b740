import LookmlProject.Graph.Orphans
import LookmlProject.Proofs.Kinds

/-! # Marked as orphans are the views from which no explore can be reached

    Marking goes through the candidates one by one and looks up kinds in the very
    graph that it changes.  The route:

    * in a kinded graph a walk from a view meets known nodes only, and meets an
      explore exactly if the view reaches a node named as one (`anyExplore_connected`);
    * marking a view changes no edge and no explore, so what the other views reach
      stays what it was (`tagAmong_kinds`): each candidate is judged as if it were
      the first, and the order of the candidates does not matter;
    * a view that is no candidate is used by an explore at once, so it reaches one
      (`mem_candidates`). -/

namespace LookmlProject.Graph

/-- The node reaches a node that is named as an explore. -/
def ReachesExplore (graph : Graph String) (name : String) : Prop :=
  ∃ explore : String, NamedAs .explore explore ∧ graph.Reaches name explore

/-- In a kinded graph paths stay among the nodes. -/
theorem Kinded.known_of_reaches {graph : Graph String} (h : graph.Kinded) {first last : String}
    (hfirst : graph.Known first) (hpath : graph.Reaches first last) : graph.Known last := by
  induction hpath with
  | refl => exact hfirst
  | tail _ hedge _ =>
      obtain ⟨kind, hmem⟩ := (mem_edges_iff graph _).mp hedge
      exact (h.target kind _ hmem).1

/-- A node has some kind. -/
theorem Kinded.kind?_of_known {graph : Graph String} (h : graph.Kinded) {name : String}
    (hname : graph.Known name) :
    ∃ kind : NodeKind, graph.kind? name = some kind ∧ NamedAs kind name := by
  obtain ⟨node, hnode, rfl⟩ := List.mem_map.mp hname
  exact ⟨node.2, (kind?_eq_some_iff h.distinct node.1 node.2).mpr hnode, h.node node hnode⟩

/-- A node is an explore exactly if it is named as one. -/
theorem Kinded.kind?_eq_explore {graph : Graph String} (h : graph.Kinded) {name : String}
    (hname : graph.Known name) : graph.kind? name = some .explore ↔ NamedAs .explore name := by
  obtain ⟨kind, hkind, hnamed⟩ := h.kind?_of_known hname
  rw [hkind]
  constructor
  · intro heq
    rw [← Option.some.inj heq]
    exact hnamed
  · intro hexplore
    have hending := hnamed.ending_eq hexplore
    cases kind with
    | explore => rfl
    | model => exact absurd hending (by decide)
    | view => exact absurd hending (by decide)
    | orphan => exact absurd hending (by decide)

/-- Among known nodes the search for an explore has a result, and finds one if it is there. -/
theorem anyExplore_of_known {graph : Graph String} (names : List String)
    (hknown : ∀ name ∈ names, ∃ kind, graph.kind? name = some kind) :
    ∃ found : Bool, graph.anyExplore names = .ok found ∧
      (found = true ↔ ∃ name ∈ names, graph.kind? name = some .explore) := by
  induction names with
  | nil => exact ⟨false, rfl, by simp⟩
  | cons name rest ih =>
      obtain ⟨kind, hkind⟩ := hknown name (by simp)
      obtain ⟨found, hrest, hfound⟩ := ih fun other h => hknown other (List.mem_cons_of_mem _ h)
      refine ⟨kind = .explore || found, by simp [anyExplore, hkind, hrest], ?_⟩
      rw [Bool.or_eq_true, decide_eq_true_eq, hfound]
      simp [hkind]

/-- The walk from a node of a kinded graph has a verdict: whether the node reaches an explore. -/
theorem Kinded.anyExplore_connected {graph : Graph String} (h : graph.Kinded) {view : String}
    (hview : graph.Known view) :
    ∃ found : Bool, graph.anyExplore (graph.connected [view]) = .ok found ∧
      (found = true ↔ graph.ReachesExplore view) := by
  have hreach : ∀ name, name ∈ graph.connected [view] ↔ graph.Reaches view name := by
    intro name
    rw [mem_connected]
    constructor
    · rintro ⟨root, hroot, hpath⟩
      rwa [List.mem_singleton.mp hroot] at hpath
    · intro hpath
      exact ⟨view, by simp, hpath⟩
  have hknown : ∀ name ∈ graph.connected [view], graph.Known name := fun name hmem =>
    h.known_of_reaches hview ((hreach name).mp hmem)
  obtain ⟨found, hok, hfound⟩ := anyExplore_of_known (graph.connected [view]) fun name hmem =>
    (h.kind?_of_known (hknown name hmem)).imp fun _ hk => hk.1
  refine ⟨found, hok, hfound.trans ?_⟩
  constructor
  · rintro ⟨name, hmem, hkind⟩
    exact ⟨name, (h.kind?_eq_explore (hknown name hmem)).mp hkind, (hreach name).mp hmem⟩
  · rintro ⟨name, hnamed, hpath⟩
    have hmem := (hreach name).mpr hpath
    exact ⟨name, hmem, (h.kind?_eq_explore (hknown name hmem)).mpr hnamed⟩

/-- Marking views changes their kinds only: nodes and edges stay. -/
structure SameShape (first second : Graph String) : Prop where
  names : first.nodes.map Prod.fst = second.nodes.map Prod.fst
  edgesOf : ∀ kind, first.edgesOf kind = second.edgesOf kind

theorem SameShape.trans {first second third : Graph String} (h : first.SameShape second)
    (h' : second.SameShape third) : first.SameShape third :=
  ⟨h.names.trans h'.names, fun kind => (h.edgesOf kind).trans (h'.edgesOf kind)⟩

/-- What is reached depends on the sets of edges only. -/
theorem reachesExplore_congr {first second : Graph String}
    (h : ∀ kind edge, edge ∈ first.edgesOf kind ↔ edge ∈ second.edgesOf kind) :
    first.ReachesExplore = second.ReachesExplore := by
  have hleads : first.Leads = second.Leads := by
    funext source target
    refine propext ?_
    rw [Leads, Leads, mem_edges_iff, mem_edges_iff]
    exact exists_congr fun kind => h kind (source, target)
  funext name
  rw [ReachesExplore, ReachesExplore, Reaches, Reaches, hleads]

theorem SameShape.reachesExplore {first second : Graph String} (h : first.SameShape second) :
    first.ReachesExplore = second.ReachesExplore :=
  reachesExplore_congr fun kind edge => by rw [h.edgesOf kind]

theorem addNode_sameShape {graph : Graph String} {name : String} (kind : NodeKind)
    (h : graph.Known name) : (graph.addNode name kind).SameShape graph :=
  ⟨setKind_names_of_mem kind h, edgesOf_addNode graph name kind⟩

open Classical in
/-- **MARKING AMONG VIEWS**: it has no fault, and of the given views it marks those from which no
explore can be reached, whatever their order.  By induction on the views; the graph of the next view
differs from the first one only in marks. -/
theorem tagAmong_kinds (views : List String) :
    ∀ graph : Graph String, graph.Kinded →
      (∀ view ∈ views, graph.Known view ∧ NamedAs .view view) →
      (graph.tagAmong views).fault = none ∧
      (graph.tagAmong views).graph.SameShape graph ∧
      (graph.tagAmong views).graph.Kinded ∧
      ∀ name : String, (graph.tagAmong views).graph.kind? name =
        if name ∈ views ∧ ¬ graph.ReachesExplore name then some .orphan
        else graph.kind? name := by
  induction views with
  | nil =>
      intro graph h _
      exact ⟨rfl, ⟨rfl, fun _ => rfl⟩, h, fun name => by simp [tagAmong]⟩
  | cons view rest ih =>
      intro graph h hviews
      obtain ⟨hknown, hnamed⟩ := hviews view (by simp)
      obtain ⟨found, hok, hfound⟩ := h.anyExplore_connected hknown
      -- Marking a view changes neither nodes nor edges, so what the rest reaches stays as it was.
      cases found with
      | true =>
          have hreaches : graph.ReachesExplore view := hfound.mp rfl
          rw [show graph.tagAmong (view :: rest) = graph.tagAmong rest by
            simp only [tagAmong, hok]]
          obtain ⟨hfault, hshape, hkinded, hkinds⟩ := ih graph h fun other hother =>
            hviews other (List.mem_cons_of_mem _ hother)
          refine ⟨hfault, hshape, hkinded, fun name => ?_⟩
          rw [hkinds name]
          by_cases hname : name = view
          · rw [hname, if_neg (fun hc => hc.2 hreaches), if_neg (fun hc => hc.2 hreaches)]
          · simp only [List.mem_cons, hname, false_or]
      | false =>
          have hlost : ¬ graph.ReachesExplore view := fun hr =>
            Bool.false_ne_true (hfound.mpr hr)
          rw [show graph.tagAmong (view :: rest) = (graph.addNode view .orphan).tagAmong rest by
            simp only [tagAmong, hok]]
          have hstep := addNode_sameShape .orphan hknown
          obtain ⟨hfault, hshape, hkinded, hkinds⟩ :=
            ih (graph.addNode view .orphan) (h.addNode hnamed) fun other hother => by
              obtain ⟨hother1, hother2⟩ := hviews other (List.mem_cons_of_mem _ hother)
              exact ⟨(known_addNode graph view .orphan other).mpr (Or.inr hother1), hother2⟩
          refine ⟨hfault, hshape.trans hstep, hkinded, fun name => ?_⟩
          rw [hkinds name, hstep.reachesExplore, kind?_addNode]
          by_cases hname : name = view
          · rw [hname, beq_self_eq_true, if_pos rfl, ite_self,
              if_pos ⟨List.mem_cons_self, hlost⟩]
          · simp only [List.mem_cons, hname, false_or, beq_false_of_ne hname,
              Bool.false_eq_true, if_false]

/-- The candidates are the unmarked views that no explore uses at once. -/
theorem mem_candidates (graph : Graph String) (name : String) :
    name ∈ graph.candidates ↔
      (name, NodeKind.view) ∈ graph.nodes ∧ ∀ edge ∈ graph.viewToExplore, edge.1 ≠ name := by
  simp only [candidates, List.mem_map, List.mem_filter, Bool.and_eq_true, decide_eq_true_eq,
    Bool.not_eq_true', List.contains_eq_mem, decide_eq_false_iff_not]
  constructor
  · rintro ⟨⟨n, k⟩, ⟨hmem, hkind, hunused⟩, rfl⟩
    obtain rfl : k = .view := hkind
    exact ⟨hmem, fun edge he heq => hunused ⟨edge, he, heq⟩⟩
  · rintro ⟨hmem, hunused⟩
    exact ⟨(name, .view), ⟨hmem, rfl, fun ⟨edge, he, heq⟩ => hunused edge he heq⟩, rfl⟩

/-- A candidate is a node that is named as a view. -/
theorem Kinded.candidate_view {graph : Graph String} (h : graph.Kinded) {name : String}
    (hname : name ∈ graph.candidates) : graph.Known name ∧ NamedAs .view name := by
  obtain ⟨hmem, _⟩ := (mem_candidates graph name).mp hname
  exact ⟨List.mem_map.mpr ⟨_, hmem, rfl⟩, h.node _ hmem⟩

/-- The candidates that reach no explore are the unmarked views that do not. -/
theorem Kinded.lost_candidate_iff {graph : Graph String} (h : graph.Kinded) (name : String) :
    (name ∈ graph.candidates ∧ ¬ graph.ReachesExplore name) ↔
      graph.kind? name = some .view ∧ ¬ graph.ReachesExplore name := by
  refine and_congr_left fun hlost => ?_
  rw [mem_candidates, kind?_eq_some_iff h.distinct]
  refine ⟨And.left, fun hmem => ⟨hmem, ?_⟩⟩
  -- An explore that uses the view at once is reached by one edge.
  intro edge he heq
  have hexplore := (h.target .viewToExplore edge he).2
  have hleads : graph.Leads edge.1 edge.2 :=
    (mem_edges_iff graph edge).mpr ⟨.viewToExplore, he⟩
  exact hlost ⟨edge.2, hexplore, heq ▸ Relation.ReflTransGen.single hleads⟩

/-- Where nothing is marked, the candidates that reach no explore are all the views that do not. -/
theorem Kinded.candidate_iff {graph : Graph String} (h : graph.Kinded) (hplain : graph.Unmarked)
    (name : String) :
    (name ∈ graph.candidates ∧ ¬ graph.ReachesExplore name) ↔
      graph.Known name ∧ NamedAs .view name ∧ ¬ graph.ReachesExplore name := by
  rw [h.lost_candidate_iff, kind?_eq_some_iff h.distinct, ← and_assoc]
  refine and_congr_left fun _ => ⟨fun hmem => ?_, ?_⟩
  · exact ⟨List.mem_map.mpr ⟨_, hmem, rfl⟩, h.node _ hmem⟩
  · rintro ⟨hknown, hnamed⟩
    obtain ⟨⟨_, kind⟩, hnode, rfl⟩ := List.mem_map.mp hknown
    have hending : kind.ending = NodeKind.view.ending := (h.node _ hnode).ending_eq hnamed
    rwa [← NodeKind.eq_of_ending hending (hplain _ hnode) (by decide)]

theorem mem_orphans {graph : Graph String} (h : graph.Kinded) (name : String) :
    name ∈ graph.orphans ↔ graph.kind? name = some .orphan := by
  rw [kind?_eq_some_iff h.distinct]
  simp only [orphans, List.mem_map, List.mem_filter, decide_eq_true_eq]
  constructor
  · rintro ⟨⟨n, k⟩, ⟨hmem, hkind⟩, rfl⟩
    obtain rfl : k = .orphan := hkind
    exact hmem
  · intro hmem
    exact ⟨_, ⟨hmem, rfl⟩, rfl⟩

theorem tagOrphans_eq (graph : Graph String) :
    graph.tagOrphans = graph.tagAmong graph.candidates := by
  rw [tagOrphans]
  have hnone : (graph.viewToExplore.findSome? fun edge => NodeName.graphFault? edge.1) = none :=
    List.findSome?_eq_none_iff.mpr fun _ _ => rfl
  rw [hnone]

/-- **ORPHANS**: whatever documents a fresh graph has taken, also where the last of them ended
early, and in whatever order the candidates are gone through, marking has no fault.  Marked are then
exactly the view nodes from which no path along edges of any kind leads to an explore node, and
nothing else of the graph has changed. -/
theorem orphans_iff_no_explore_reached (docs : List Lookml.Document) :
    let graph := ((Graph.empty : Graph String).processAll docs).graph
    graph.tagOrphans = graph.tagAmong graph.candidates ∧
    ∀ order : List String, order.Perm graph.candidates →
      (graph.tagAmong order).fault = none ∧
      (∀ name : String, name ∈ (graph.tagAmong order).graph.orphans ↔
        graph.Known name ∧ NamedAs .view name ∧
          ¬ ∃ explore : String, graph.Known explore ∧ NamedAs .explore explore ∧
            graph.Reaches name explore) ∧
      (graph.tagAmong order).graph.nodes.map Prod.fst = graph.nodes.map Prod.fst ∧
      (∀ name : String, name ∉ (graph.tagAmong order).graph.orphans →
        (graph.tagAmong order).graph.kind? name = graph.kind? name) ∧
      (∀ kind : EdgeKind, (graph.tagAmong order).graph.edgesOf kind = graph.edgesOf kind) := by
  intro graph
  obtain ⟨h, hplain⟩ := processAll_kinded docs Graph.empty empty_kinded empty_unmarked
  refine ⟨tagOrphans_eq graph, fun order horder => ?_⟩
  obtain ⟨hfault, hshape, hkinded, hkinds⟩ := tagAmong_kinds order graph h fun view hview =>
    h.candidate_view (horder.mem_iff.mp hview)
  -- No node was marked before, so the marks are those of this walk.
  have hmarked : ∀ name : String, name ∈ (graph.tagAmong order).graph.orphans ↔
      name ∈ order ∧ ¬ graph.ReachesExplore name := by
    intro name
    rw [mem_orphans hkinded, hkinds name]
    by_cases hname : name ∈ order ∧ ¬ graph.ReachesExplore name
    · simp [hname]
    · rw [if_neg hname]
      refine iff_of_false (fun hkind => ?_) hname
      exact hplain _ ((kind?_eq_some_iff h.distinct name .orphan).mp hkind) rfl
  refine ⟨hfault, fun name => ?_, hshape.names, fun name hname => ?_, hshape.edgesOf⟩
  · rw [hmarked name, horder.mem_iff, h.candidate_iff hplain]
    refine and_congr_right fun hknown => and_congr_right fun _ => not_congr ?_
    constructor
    · rintro ⟨explore, hnamed, hpath⟩
      exact ⟨explore, h.known_of_reaches hknown hpath, hnamed, hpath⟩
    · rintro ⟨explore, _, hnamed, hpath⟩
      exact ⟨explore, hnamed, hpath⟩
  · rw [hkinds name, if_neg (fun h => hname ((hmarked name).mpr h))]

/-- A project in which an explore uses `sales` alone, but `orders` through the SQL of `sales`. -/
def shop : List Lookml.Document :=
  [⟨"orders.view.lkml", "orders.view.lkml", "orders", .view,
      [("views", .list [.record [("name", .text "orders")], .record [("name", .text "lost")]])]⟩,
    ⟨"sales.view.lkml", "sales.view.lkml", "sales", .view,
      [("views", .list [.record [("name", .text "sales"), ("derived_table", .record
        [("sql", .text "select * from $\x7borders.SQL_TABLE_NAME\x7d")])]])]⟩,
    ⟨"shop.model.lkml", "shop.model.lkml", "shop", .model,
      [("explores", .list [.record [("name", .text "sales")]])]⟩]

/-- The candidates of the project backwards: the view that is marked reaches no explore, and the one
that is not does. -/
theorem shop_marked_backwards :
    let graph := ((Graph.empty : Graph String).processAll shop).graph
    graph.candidates = ["orders.view", "lost.view"] ∧
    (graph.tagAmong ["lost.view", "orders.view"]).fault = none ∧
    (¬ ∃ explore : String, graph.Known explore ∧ NamedAs .explore explore ∧
      graph.Reaches "lost.view" explore) ∧
    ∃ explore : String, graph.Known explore ∧ NamedAs .explore explore ∧
      graph.Reaches "orders.view" explore := by
  intro graph
  have hcandidates : graph.candidates = ["orders.view", "lost.view"] := by decide
  obtain ⟨hfault, hmarked, _⟩ :=
    (orphans_iff_no_explore_reached shop).2 ["lost.view", "orders.view"]
      (hcandidates ▸ List.Perm.swap "orders.view" "lost.view" [])
  refine ⟨hcandidates, hfault, ((hmarked "lost.view").mp (by decide)).2.2,
    Classical.byContradiction fun hnone => ?_⟩
  have hknown : "orders.view" ∈ graph.nodes.map Prod.fst := by decide
  have horphan := (hmarked "orders.view").mpr ⟨hknown, ⟨"orders", rfl⟩, hnone⟩
  exact absurd horphan (by decide)

example : ((Graph.empty : Graph String).processAll shop).graph.tagOrphans.graph.orphans =
    ["lost.view"] := by decide

end LookmlProject.Graph
