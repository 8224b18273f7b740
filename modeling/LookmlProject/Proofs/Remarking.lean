import LookmlProject.Proofs.Recorded

/-! # Marks that outlast their reason

    Documents may come in two parts, with a marking after each.  The second
    marking looks at views that bear no mark, and a mark is taken off only where
    a document declares its view again.  A view can come to reach an explore
    through views that the second part declares, without being declared itself:
    its mark is stale then.  The route:

    * one marking, of a graph with or without marks, gives each node the kind
      that its kind before and its paths tell (`Kinded.tagAmong_marks`);
    * additions give a node that they declare the kind of its name, and leave the
      others alone (`kind?_addAll_of_mem`, `kind?_addAll_of_not_mem`);
    * more edges only add paths (`ReachesExplore.mono`).

    So the two markings leave the same graph as a single one, stale marks apart
    (`marks_of_two_parts`). -/

namespace LookmlProject.Graph

open Lookml

/-! ## One marking -/

open Classical in
/-- **ONE MARKING** of a graph that may have marks: of the views without a mark, those get one that
reach no explore. -/
theorem Kinded.tagAmong_marks {graph : Graph String} (h : graph.Kinded) {order : List String}
    (horder : order.Perm graph.candidates) :
    (graph.tagAmong order).fault = none ∧
    (graph.tagAmong order).graph.SameShape graph ∧
    (graph.tagAmong order).graph.Kinded ∧
    ∀ name : String, (graph.tagAmong order).graph.kind? name =
      if graph.kind? name = some .view ∧ ¬ graph.ReachesExplore name then some .orphan
      else graph.kind? name := by
  obtain ⟨hfault, hshape, hkinded, hkinds⟩ := tagAmong_kinds order graph h fun view hview =>
    h.candidate_view (horder.mem_iff.mp hview)
  refine ⟨hfault, hshape, hkinded, fun name => ?_⟩
  rw [hkinds name]
  simp only [horder.mem_iff, h.lost_candidate_iff]

/-! ## Documents after a marking -/

/-- What documents and then marking may leave of a graph: what the documents declare is added in
some order, and the candidates are gone through in some order. -/
def OutcomeFrom (graph : Graph String) (docs : List Document) (change : Change String) : Prop :=
  ∃ (additions : List (Addition String)) (order : List String),
    additions.Perm (declared docs) ∧
    order.Perm (graph.addAll additions).candidates ∧
    change = (graph.addAll additions).tagAmong order

/-- Adds documents to a graph and marks it. -/
def addAndMark (graph : Graph String) (docs : List Document) : Change String :=
  (graph.processAll docs).graph.tagOrphans

theorem outcomeFrom_addAndMark {graph : Graph String} {docs : List Document}
    (h : (graph.processAll docs).fault = none) : OutcomeFrom graph docs (graph.addAndMark docs) := by
  rw [addAndMark, processAll_declared docs graph h, tagOrphans_eq]
  exact ⟨declared docs, _, List.Perm.refl _, List.Perm.refl _, rfl⟩

/-- Documents declare a node. -/
def Declares (docs : List Document) (name : String) : Prop := ∃ kind, .node name kind ∈ declared docs

/-- A node that no addition is about stays as it is. -/
theorem kind?_addAll_of_not_mem {name : String} (additions : List (Addition String)) :
    ∀ graph : Graph String, (∀ kind, .node name kind ∉ additions) →
      (graph.addAll additions).kind? name = graph.kind? name := by
  induction additions with
  | nil => intro graph _; rfl
  | cons addition rest ih =>
      intro graph hnone
      show ((graph.add addition).addAll rest).kind? name = _
      rw [ih _ fun kind hmem => hnone kind (List.mem_cons_of_mem _ hmem)]
      cases addition with
      | node other kind =>
          have hname : name ≠ other := by
            rintro rfl
            exact hnone kind List.mem_cons_self
          rw [add, kind?_addNode, beq_false_of_ne hname, if_neg Bool.false_ne_true]
      | edge kind source target => rw [kind?, add, nodes_addEdge]; rfl

/-- A node that documents declare has the kind that its name tells, in every graph to which they are
added. -/
theorem kind?_of_declares {docs : List Document} {name : String} (h : Declares docs name) :
    ∃ kind, ∀ (graph : Graph String) (additions : List (Addition String)),
      (∀ addition, addition ∈ additions ↔ addition ∈ declared docs) →
      (graph.addAll additions).kind? name = some kind := by
  obtain ⟨kind, hmem⟩ := h
  have hfits : ∀ other, .node name other ∈ declared docs → NamedAs other name ∧ other ≠ .orphan :=
    fun other => node_of_fitsAll _ Graph.empty (fitsAll_declared docs _)
  obtain ⟨hnamed, hkind⟩ := hfits kind hmem
  refine ⟨kind, fun graph additions hset => ?_⟩
  refine kind?_addAll_of_mem additions graph (fun other hother => ?_) (Or.inr ((hset _).mpr hmem))
  obtain ⟨hnamed', hkind'⟩ := hfits other ((hset _).mp hother)
  exact NodeKind.eq_of_ending (hnamed'.ending_eq hnamed) hkind' hkind

/-- The order in which documents add what they declare does not show in the kinds. -/
theorem kind?_addAll_declared {docs : List Document} {additions : List (Addition String)}
    (hperm : additions.Perm (declared docs)) (graph : Graph String) (name : String) :
    (graph.addAll additions).kind? name = (graph.addAll (declared docs)).kind? name := by
  by_cases hname : Declares docs name
  · obtain ⟨kind, hkind⟩ := kind?_of_declares hname
    rw [hkind graph additions fun _ => hperm.mem_iff, hkind graph (declared docs) fun _ => Iff.rfl]
  · have hnone : ∀ kind, .node name kind ∉ declared docs := fun kind hmem => hname ⟨kind, hmem⟩
    rw [kind?_addAll_of_not_mem additions graph fun kind hmem => hnone kind (hperm.mem_iff.mp hmem),
      kind?_addAll_of_not_mem (declared docs) graph hnone]

open Classical in
/-- **DOCUMENTS AND A MARKING**: whatever order was taken, the graph has the kinds and edges that
the documents in their own order would leave, and marks for the views that reach no explore in it. -/
theorem OutcomeFrom.marks {graph : Graph String} {docs : List Document} {change : Change String}
    (h : OutcomeFrom graph docs change) (hkinded : graph.Kinded) :
    change.fault = none ∧ change.graph.Kinded ∧
    (∀ kind, (change.graph.edgesOf kind).Perm ((graph.addAll (declared docs)).edgesOf kind)) ∧
    ∀ name : String, change.graph.kind? name =
      if (graph.addAll (declared docs)).kind? name = some .view ∧
        ¬ (graph.addAll (declared docs)).ReachesExplore name then some .orphan
      else (graph.addAll (declared docs)).kind? name := by
  obtain ⟨additions, order, hperm, horder, rfl⟩ := h
  obtain ⟨hadded, _⟩ := hkinded.addAll_of_mem_iff (fitsAll_declared docs _) fun _ => hperm.mem_iff
  obtain ⟨hfault, hshape, hmarked, hkinds⟩ := hadded.tagAmong_marks horder
  have hsets := addAll_sameSets (fun _ => hperm.mem_iff) graph
  refine ⟨hfault, hmarked, fun kind => ?_, fun name => ?_⟩
  · rw [hshape.edgesOf, edgesOf_addAll, edgesOf_addAll]
    exact List.Perm.append_left _ (hperm.filterMap _)
  · rw [hkinds, kind?_addAll_declared hperm, reachesExplore_congr hsets.edge]

/-- More edges add paths. -/
theorem ReachesExplore.mono {first second : Graph String} {name : String}
    (h : first.ReachesExplore name)
    (hedges : ∀ kind, ∀ edge ∈ first.edgesOf kind, edge ∈ second.edgesOf kind) :
    second.ReachesExplore name := by
  obtain ⟨explore, hnamed, hpath⟩ := h
  refine ⟨explore, hnamed, Relation.ReflTransGen.mono (fun source target hleads => ?_) _ _ hpath⟩
  obtain ⟨kind, hmem⟩ := (mem_edges_iff first _).mp hleads
  exact (mem_edges_iff second _).mpr ⟨kind, hedges kind _ hmem⟩

/-! ## Two parts -/

/-- A mark that outlasts its reason: the view reaches no explore in the graph of the first documents,
none of the second documents declares it, and in the graph of all of them it reaches an explore. -/
structure Stale (first second : List Document) (name : String) : Prop where
  view : NamedAs .view name
  known : ((Graph.empty : Graph String).processAll first).graph.Known name
  lost : ¬ ((Graph.empty : Graph String).processAll first).graph.ReachesExplore name
  undeclared : ¬ Declares second name
  reached : ((Graph.empty : Graph String).processAll (first ++ second)).graph.ReachesExplore name

theorem declared_append (first second : List Document) :
    declared (first ++ second) = declared first ++ declared second :=
  List.flatMap_append

theorem addAll_append (graph : Graph String) (first second : List (Addition String)) :
    graph.addAll (first ++ second) = (graph.addAll first).addAll second :=
  List.foldl_append

open Classical in
/-- **TWO PARTS AND ONE**: the kinds after two markings are those after a single one, apart from
stale marks. -/
theorem kind?_of_two_parts {first second : List Document} {early late once : Change String}
    (hfirst : ((Graph.empty : Graph String).processAll first).fault = none)
    (hboth : ((Graph.empty : Graph String).processAll (first ++ second)).fault = none)
    (hearly : OutcomeFrom Graph.empty first early) (hlate : OutcomeFrom early.graph second late)
    (honce : OutcomeFrom Graph.empty (first ++ second) once) (name : String) :
    late.graph.kind? name =
      if Stale first second name then some .orphan else once.graph.kind? name := by
  obtain ⟨_, hkinded, hedges, hkinds⟩ := hearly.marks empty_kinded
  obtain ⟨_, _, _, hkinds'⟩ := hlate.marks hkinded
  obtain ⟨_, _, _, honceKinds⟩ := honce.marks empty_kinded
  rw [declared_append, addAll_append] at honceKinds
  -- The edges after the first marking are those of the first documents, so paths agree.
  have hreach : (early.graph.addAll (declared second)).ReachesExplore =
      ((Graph.empty.addAll (declared first)).addAll (declared second)).ReachesExplore := by
    refine reachesExplore_congr fun kind edge => ?_
    rw [edgesOf_addAll, edgesOf_addAll, List.mem_append, List.mem_append, (hedges kind).mem_iff]
  have hgrow : (Graph.empty.addAll (declared first)).ReachesExplore name →
      ((Graph.empty.addAll (declared first)).addAll (declared second)).ReachesExplore name :=
    fun hreaches => hreaches.mono fun kind edge hmem => by
      rw [edgesOf_addAll]
      exact List.mem_append_left _ hmem
  obtain ⟨hbase, hplain⟩ := Kinded.addAll (declared first) Graph.empty empty_kinded
    (fitsAll_declared first _)
  have hview := hbase.kind?_iff (hplain empty_unmarked) name .view
  have hstale : Stale first second name ↔
      (Graph.empty.addAll (declared first)).kind? name = some .view ∧
      ¬ (Graph.empty.addAll (declared first)).ReachesExplore name ∧ ¬ Declares second name ∧
      ((Graph.empty.addAll (declared first)).addAll (declared second)).ReachesExplore name := by
    rw [hview, ← addAll_append, ← declared_append, ← processAll_declared first _ hfirst,
      ← processAll_declared _ _ hboth]
    exact ⟨fun h => ⟨⟨h.known, h.view, by decide⟩, h.lost, h.undeclared, h.reached⟩,
      fun ⟨⟨hknown, hnamed, _⟩, hlost, hundeclared, hreached⟩ =>
        ⟨hnamed, hknown, hlost, hundeclared, hreached⟩⟩
  rw [hkinds', honceKinds, hreach]
  by_cases hname : Declares second name
  · -- The mark of a view that is declared again is taken off.
    obtain ⟨kind, hkind⟩ := kind?_of_declares hname
    rw [hkind early.graph _ fun _ => Iff.rfl, hkind _ _ fun _ => Iff.rfl,
      if_neg (c := Stale first second name) fun h => h.undeclared hname]
  · have hnone : ∀ kind, .node name kind ∉ declared second := fun kind hmem => hname ⟨kind, hmem⟩
    rw [kind?_addAll_of_not_mem _ early.graph hnone, kind?_addAll_of_not_mem _ _ hnone, hkinds]
    by_cases hlost : (Graph.empty.addAll (declared first)).kind? name = some .view ∧
        ¬ (Graph.empty.addAll (declared first)).ReachesExplore name
    · rw [if_pos hlost, if_neg (by simp)]
      by_cases hreached :
          ((Graph.empty.addAll (declared first)).addAll (declared second)).ReachesExplore name
      · rw [if_pos (hstale.mpr ⟨hlost.1, hlost.2, hname, hreached⟩)]
      · rw [if_neg (c := Stale first second name) fun h => hreached (hstale.mp h).2.2.2,
          if_pos ⟨hlost.1, hreached⟩]
    · rw [if_neg hlost, if_neg (c := Stale first second name) fun h =>
        hlost ⟨(hstale.mp h).1, (hstale.mp h).2.1⟩]

open Classical in
/-- **MARKING IN TWO PARTS**: of two accepted lists of documents, the first is added to an empty
graph and marked, and then the second is added and the graph is marked again.  Whatever orders are
taken, there is no fault, the edges are those of all documents at once, and so are the kinds, except
that stale marks stay.  So the two ways end in the same nodes, and in the same orphans, exactly if
no mark is stale. -/
theorem marks_of_two_parts {first second : List Document}
    (hfirst : ((Graph.empty : Graph String).processAll first).fault = none)
    (hsecond : ((Graph.empty : Graph String).processAll second).fault = none) :
    (∀ graph : Graph String, (graph.processAll second).fault = none) ∧
    OutcomeFrom Graph.empty first (Graph.empty.addAndMark first) ∧
    OutcomeFrom (Graph.empty.addAndMark first).graph second
      ((Graph.empty.addAndMark first).graph.addAndMark second) ∧
    ((Graph.empty : Graph String).processAll (first ++ second)).fault = none ∧
    OutcomeFrom Graph.empty (first ++ second) (Graph.empty.addAndMark (first ++ second)) ∧
    ∀ early late once : Change String, OutcomeFrom Graph.empty first early →
      OutcomeFrom early.graph second late → OutcomeFrom Graph.empty (first ++ second) once →
      early.fault = none ∧ late.fault = none ∧ once.fault = none ∧
      (∀ kind, (late.graph.edgesOf kind).Perm (once.graph.edgesOf kind)) ∧
      (∀ name : String, late.graph.kind? name =
        if Stale first second name then some .orphan else once.graph.kind? name) ∧
      (∀ name : String, name ∈ late.graph.orphans ↔
        name ∈ once.graph.orphans ∨ Stale first second name) ∧
      (late.graph.nodes.Perm once.graph.nodes ↔ ∀ name, ¬ Stale first second name) ∧
      (late.graph.orphans.Perm once.graph.orphans ↔ ∀ name, ¬ Stale first second name) := by
  have hlate : ∀ graph : Graph String, (graph.processAll second).fault = none := fun graph =>
    (processAll_accepted second graph).mpr ((processAll_accepted second _).mp hsecond)
  have hboth : ((Graph.empty : Graph String).processAll (first ++ second)).fault = none := by
    rw [processAll_accepted] at hfirst hsecond ⊢
    exact fun doc hdoc => (List.mem_append.mp hdoc).elim (hfirst doc) (hsecond doc)
  refine ⟨hlate, outcomeFrom_addAndMark hfirst, outcomeFrom_addAndMark (hlate _), hboth,
    outcomeFrom_addAndMark hboth, ?_⟩
  intro early late once hearlyOut hlateOut honceOut
  obtain ⟨hearlyFault, hearlyKinded, hearlyEdges, _⟩ := hearlyOut.marks empty_kinded
  obtain ⟨hlateFault, hlateKinded, hlateEdges, _⟩ := hlateOut.marks hearlyKinded
  obtain ⟨honceFault, honceKinded, honceEdges, honceKinds⟩ := honceOut.marks empty_kinded
  have hkinds := kind?_of_two_parts hfirst hboth hearlyOut hlateOut honceOut
  have horphans : ∀ name : String, name ∈ late.graph.orphans ↔
      name ∈ once.graph.orphans ∨ Stale first second name := by
    intro name
    rw [mem_orphans hlateKinded, mem_orphans honceKinded, hkinds name]
    by_cases hstale : Stale first second name
    · simp [hstale]
    · simp [hstale]
  -- A stale mark is on a view that reaches an explore, so a single marking leaves it out.
  have hfresh : ∀ name, Stale first second name → name ∉ once.graph.orphans := by
    intro name hstale hmem
    have hreached := hstale.reached
    rw [processAll_declared _ _ hboth] at hreached
    rw [mem_orphans honceKinded, honceKinds, if_neg fun h => h.2 hreached] at hmem
    obtain ⟨hbase, hplain⟩ := Kinded.addAll _ Graph.empty empty_kinded
      (fitsAll_declared (first ++ second) _)
    exact hplain empty_unmarked _ ((kind?_eq_some_iff hbase.distinct name .orphan).mp hmem) rfl
  have hagree : (∀ name, ¬ Stale first second name) → late.graph.nodes.Perm once.graph.nodes :=
    fun hnone => nodes_perm hlateKinded honceKinded fun name => by rw [hkinds, if_neg (hnone name)]
  have hstop : late.graph.orphans.Perm once.graph.orphans → ∀ name, ¬ Stale first second name :=
    fun hperm name hstale =>
      hfresh name hstale (hperm.mem_iff.mp ((horphans name).mpr (Or.inr hstale)))
  refine ⟨hearlyFault, hlateFault, honceFault, fun kind => ?_, hkinds, horphans, ?_, ?_⟩
  · refine (hlateEdges kind).trans (List.Perm.trans ?_ (honceEdges kind).symm)
    rw [edgesOf_addAll, declared_append, addAll_append, edgesOf_addAll]
    exact List.Perm.append_right _ (hearlyEdges kind)
  · exact ⟨fun hperm => hstop ((hperm.filter _).map Prod.fst), hagree⟩
  · exact ⟨hstop, fun hnone => ((hagree hnone).filter _).map Prod.fst⟩

/-- Two views, the second of which selects from the first. -/
def chain : List Document :=
  [⟨"base.view.lkml", "base.view.lkml", "base", .view,
      [("views", .list [.record [("name", .text "base")]])]⟩,
    ⟨"top.view.lkml", "top.view.lkml", "top", .view,
      [("views", .list [.record [("name", .text "top"), ("derived_table", .record
        [("sql", .text "select * from $\x7bbase.SQL_TABLE_NAME\x7d")])]])]⟩]

/-- A model with an explore of the second view. -/
def chainModel : List Document :=
  [⟨"shop.model.lkml", "shop.model.lkml", "shop", .model,
      [("explores", .list [.record [("name", .text "top")]])]⟩]

/-- The model after the views leaves a stale mark on the first view, and the views after the model
leave none. -/
theorem chain_marks :
    ((Graph.empty : Graph String).processAll chain).fault = none ∧
    ((Graph.empty : Graph String).processAll chainModel).fault = none ∧
    Stale chain chainModel "base.view" ∧ ∀ name, ¬ Stale chainModel chain name := by
  have hviews : ((Graph.empty : Graph String).processAll chain).fault = none := by decide
  have hmodel : ((Graph.empty : Graph String).processAll chainModel).fault = none := by decide
  obtain ⟨_, hearly, hlate, _, honce, hparts⟩ := marks_of_two_parts hviews hmodel
  obtain ⟨_, _, _, _, _, horphans, _⟩ := hparts _ _ _ hearly hlate honce
  obtain ⟨_, hearly', hlate', _, honce', hparts'⟩ := marks_of_two_parts hmodel hviews
  obtain ⟨_, _, _, _, _, _, _, hagree⟩ := hparts' _ _ _ hearly' hlate' honce'
  refine ⟨hviews, hmodel, ((horphans "base.view").mp (by decide)).resolve_left (by decide),
    hagree.mp (List.Perm.of_eq (by decide))⟩

/-- The first view of a chain stays an orphan when an explore of the second one comes after the
marking, although the explore can be reached from it. -/
theorem chain_stays_marked :
    ((Graph.empty.addAndMark chain).graph.addAndMark chainModel).graph.orphans = ["base.view"] ∧
    (Graph.empty.addAndMark (chain ++ chainModel)).graph.orphans = [] := by
  decide

end LookmlProject.Graph
