import LookmlProject.Proofs.Orphans
import Mathlib.Data.List.Nodup

/-! # The graph depends on the set of documents

    Documents come in the order in which patterns find them, and a document that
    two patterns find comes twice.  Nothing of that shows in the graph:

    * what a list of additions leaves behind is told by its members alone: which
      names are nodes (`known_addAll`) and which edges there are (`edgesOf_addAll`);
    * the kind of a node is told by its name (`Kinded.kind?_iff`), so it does not
      matter which of two additions of one node comes last;
    * marking depends on nodes and edges only (`Kinded.tagAmong_candidates`).

    The order in which a document adds what it declares, and the order in which
    marking goes through the candidates, are left open as well (`Outcome`). -/

namespace LookmlProject.Graph

open Lookml

/-! ## What additions leave behind -/

/-- The edges of a kind among some additions, in order. -/
def edgesIn (kind : EdgeKind) (additions : List (Addition String)) : List (Edge String) :=
  additions.filterMap fun
    | .node _ _ => none
    | .edge other source target => if other = kind then some (source, target) else none

/-- The edges of a kind are those that are added. -/
theorem mem_edgesIn (kind : EdgeKind) (additions : List (Addition String)) (edge : Edge String) :
    edge ∈ edgesIn kind additions ↔ .edge kind edge.1 edge.2 ∈ additions := by
  rw [edgesIn, List.mem_filterMap]
  constructor
  · rintro ⟨addition, hmem, heq⟩
    cases addition with
    | node name other => exact nomatch heq
    | edge other source target =>
        by_cases hkind : other = kind
        · simp only [if_pos hkind, Option.some.injEq] at heq
          rwa [← heq, ← hkind]
        · simp only [if_neg hkind] at heq
          exact nomatch heq
  · intro hmem
    exact ⟨_, hmem, if_pos rfl⟩

/-- Edges are added behind those that are there. -/
theorem edgesOf_addAll (kind : EdgeKind) (additions : List (Addition String)) :
    ∀ graph : Graph String,
      (graph.addAll additions).edgesOf kind = graph.edgesOf kind ++ edgesIn kind additions := by
  induction additions with
  | nil => intro graph; exact (List.append_nil _).symm
  | cons addition rest ih =>
      intro graph
      show ((graph.add addition).addAll rest).edgesOf kind = _
      rw [ih]
      cases addition with
      | node name other => rw [add, edgesOf_addNode]; rfl
      | edge other source target =>
          rw [add, edgesOf_addEdge, List.append_assoc, edgesIn, edgesIn, List.filterMap_cons]
          by_cases hkind : other = kind
          · simp [hkind]
          · simp [hkind, Ne.symm hkind]

/-- A name is known if it was before, or if a node of that name is added. -/
theorem known_addAll (name : String) (additions : List (Addition String)) :
    ∀ graph : Graph String, (graph.addAll additions).Known name ↔
      graph.Known name ∨ ∃ kind, .node name kind ∈ additions := by
  induction additions with
  | nil => intro graph; simp [addAll]
  | cons addition rest ih =>
      intro graph
      show ((graph.add addition).addAll rest).Known name ↔ _
      rw [ih]
      cases addition with
      | node other kind =>
          rw [add, known_addNode]
          constructor
          · rintro ((rfl | hknown) | ⟨k, hmem⟩)
            · exact Or.inr ⟨kind, List.mem_cons_self⟩
            · exact Or.inl hknown
            · exact Or.inr ⟨k, List.mem_cons_of_mem _ hmem⟩
          · rintro (hknown | ⟨k, hmem⟩)
            · exact Or.inl (Or.inr hknown)
            · rcases List.mem_cons.mp hmem with heq | hrest
              · exact Or.inl (Or.inl (Addition.node.inj heq).1)
              · exact Or.inr ⟨k, hrest⟩
      | edge kind source target =>
          rw [Known, add, nodes_addEdge]
          refine or_congr_right (exists_congr fun k => ?_)
          simp

/-- Every node was there before or is added. -/
theorem mem_nodes_addAll {node : String × NodeKind} (additions : List (Addition String)) :
    ∀ graph : Graph String, node ∈ (graph.addAll additions).nodes →
      node ∈ graph.nodes ∨ .node node.1 node.2 ∈ additions := by
  induction additions with
  | nil => intro graph h; exact Or.inl h
  | cons addition rest ih =>
      intro graph h
      rcases ih (graph.add addition) h with hadded | hrest
      · cases addition with
        | node name kind =>
            rcases mem_setKind hadded with heq | hmem
            · exact Or.inr (heq ▸ List.mem_cons_self)
            · exact Or.inl hmem
        | edge kind source target =>
            rw [add, nodes_addEdge] at hadded
            exact Or.inl hadded
      · exact Or.inr (List.mem_cons_of_mem _ hrest)

/-- Adding keeps the names of nodes distinct. -/
theorem distinct_addAll (additions : List (Addition String)) :
    ∀ graph : Graph String, (graph.nodes.map Prod.fst).Nodup →
      ((graph.addAll additions).nodes.map Prod.fst).Nodup := by
  induction additions with
  | nil => intro graph h; exact h
  | cons addition rest ih =>
      intro graph h
      refine ih (graph.add addition) ?_
      cases addition with
      | node name kind => exact setKind_distinct kind h
      | edge kind source target => rw [add, nodes_addEdge]; exact h

/-- Additions that fit have nodes that are named as their kinds and are no orphans. -/
theorem node_of_fitsAll {name : String} {kind : NodeKind} (additions : List (Addition String)) :
    ∀ graph : Graph String, graph.FitsAll additions → .node name kind ∈ additions →
      NamedAs kind name ∧ kind ≠ .orphan := by
  induction additions with
  | nil => intro graph _ h; exact nomatch h
  | cons addition rest ih =>
      intro graph hfits hmem
      rcases List.mem_cons.mp hmem with rfl | hrest
      · exact hfits.1
      · exact ih _ hfits.2 hrest

/-- **ANY ORDER OF ADDITIONS**: additions that fit in one order keep the invariant in every order,
and however often each of them is repeated. -/
theorem Kinded.addAll_of_mem_iff {graph : Graph String} (h : graph.Kinded)
    {first second : List (Addition String)} (hfits : graph.FitsAll first)
    (hset : ∀ addition, addition ∈ second ↔ addition ∈ first) :
    (graph.addAll second).Kinded ∧ (graph.Unmarked → (graph.addAll second).Unmarked) := by
  obtain ⟨hfirst, _⟩ := Kinded.addAll first graph h hfits
  have hnode : ∀ node ∈ (graph.addAll second).nodes, node ∈ graph.nodes ∨
      (NamedAs node.2 node.1 ∧ node.2 ≠ .orphan) := fun node hmem =>
    (mem_nodes_addAll second graph hmem).imp_right fun hadded =>
      node_of_fitsAll first graph hfits ((hset _).mp hadded)
  have hknown : ∀ name, (graph.addAll first).Known name → (graph.addAll second).Known name := by
    intro name
    rw [known_addAll, known_addAll]
    simp only [hset, imp_self]
  have hedge : ∀ kind edge, edge ∈ (graph.addAll second).edgesOf kind →
      edge ∈ (graph.addAll first).edgesOf kind := by
    intro kind edge
    rw [edgesOf_addAll, edgesOf_addAll, List.mem_append, List.mem_append, mem_edgesIn, mem_edgesIn,
      hset]
    exact id
  -- Only the members of the list count: each part of the invariant speaks of a single node or edge.
  refine ⟨⟨distinct_addAll second graph h.distinct, ?_, ?_, ?_⟩, ?_⟩
  · intro node hmem
    rcases hnode node hmem with hold | hnew
    · exact h.node node hold
    · exact hnew.1
  · intro kind edge hmem
    exact (hfirst.source kind edge (hedge kind edge hmem)).imp_left (hknown edge.1)
  · intro kind edge hmem
    exact (hfirst.target kind edge (hedge kind edge hmem)).imp_left (hknown edge.2)
  · intro hplain node hmem
    rcases hnode node hmem with hold | hnew
    · exact hplain node hold
    · exact hnew.2

/-! ## Graphs with the same nodes and edges -/

/-- The kind of a node that is not marked is the one that its name tells. -/
theorem Kinded.kind?_iff {graph : Graph String} (h : graph.Kinded) (hplain : graph.Unmarked)
    (name : String) (kind : NodeKind) :
    graph.kind? name = some kind ↔ graph.Known name ∧ NamedAs kind name ∧ kind ≠ .orphan := by
  rw [kind?_eq_some_iff h.distinct]
  constructor
  · intro hmem
    exact ⟨List.mem_map.mpr ⟨_, hmem, rfl⟩, h.node _ hmem, hplain _ hmem⟩
  · rintro ⟨hknown, hnamed, hkind⟩
    obtain ⟨⟨_, actual⟩, hnode, rfl⟩ := List.mem_map.mp hknown
    have hending : actual.ending = kind.ending := (h.node _ hnode).ending_eq hnamed
    rwa [← NodeKind.eq_of_ending hending (hplain _ hnode) hkind]

open Classical in
/-- Marking a graph without marks, in whatever order: marked are the nodes named as views that reach
no explore. -/
theorem Kinded.tagAmong_candidates {graph : Graph String} (h : graph.Kinded)
    (hplain : graph.Unmarked) {order : List String} (horder : order.Perm graph.candidates) :
    (graph.tagAmong order).fault = none ∧
    (graph.tagAmong order).graph.SameShape graph ∧
    (graph.tagAmong order).graph.Kinded ∧
    ∀ name : String, (graph.tagAmong order).graph.kind? name =
      if graph.Known name ∧ NamedAs .view name ∧ ¬ graph.ReachesExplore name then some .orphan
      else graph.kind? name := by
  obtain ⟨hfault, hshape, hkinded, hkinds⟩ := tagAmong_kinds order graph h fun view hview =>
    h.candidate_view (horder.mem_iff.mp hview)
  refine ⟨hfault, hshape, hkinded, fun name => ?_⟩
  rw [hkinds name]
  simp only [horder.mem_iff, h.candidate_iff hplain]

/-- Two graphs have the same names of nodes and the same edges of each kind, as sets. -/
structure SameSets (first second : Graph String) : Prop where
  known : ∀ name, first.Known name ↔ second.Known name
  edge : ∀ kind edge, edge ∈ first.edgesOf kind ↔ edge ∈ second.edgesOf kind

theorem SameSets.kind? {first second : Graph String} (h : first.SameSets second)
    (hfirst : first.Kinded) (hplain : first.Unmarked) (hsecond : second.Kinded)
    (hplain' : second.Unmarked) (name : String) : first.kind? name = second.kind? name := by
  refine Option.ext fun kind => ?_
  rw [hfirst.kind?_iff hplain, hsecond.kind?_iff hplain', h.known]

/-- Lists with the same additions leave the same names and edges. -/
theorem addAll_sameSets {first second : List (Addition String)}
    (hset : ∀ addition, addition ∈ first ↔ addition ∈ second) (graph : Graph String) :
    (graph.addAll first).SameSets (graph.addAll second) where
  known := by
    intro name
    rw [known_addAll, known_addAll]
    simp only [hset]
  edge := by
    intro kind edge
    rw [edgesOf_addAll, edgesOf_addAll, List.mem_append, List.mem_append, mem_edgesIn, mem_edgesIn,
      hset]

/-- Distinct names under the same kinds are the same nodes in another order. -/
theorem nodes_perm {first second : Graph String} (hfirst : first.Kinded) (hsecond : second.Kinded)
    (hkinds : ∀ name, first.kind? name = second.kind? name) : first.nodes.Perm second.nodes := by
  rw [List.perm_ext_iff_of_nodup (List.Nodup.of_map _ hfirst.distinct)
    (List.Nodup.of_map _ hsecond.distinct)]
  rintro ⟨name, kind⟩
  rw [← kind?_eq_some_iff hfirst.distinct, ← kind?_eq_some_iff hsecond.distinct, hkinds]

/-! ## Documents in any order -/

/-- All that some documents add, one after the other. -/
def declared (docs : List Document) : List (Addition String) :=
  docs.flatMap fun doc => (declareDocument doc).steps

/-- What documents declare fits, whatever the graph. -/
theorem fitsAll_declared (docs : List Document) :
    ∀ graph : Graph String, graph.FitsAll (declared docs) := by
  induction docs with
  | nil => intro graph; exact trivial
  | cons doc rest ih =>
      intro graph
      rw [declared, List.flatMap_cons, fitsAll_append]
      exact ⟨(declareDocument_sound doc graph (fun _ hname => nomatch hname)).1, ih _⟩

/-- Documents are accepted if each of them is, wherever it stands. -/
theorem processAll_accepted (docs : List Document) :
    ∀ graph : Graph String, (graph.processAll docs).fault = none ↔
      ∀ doc ∈ docs, (declareDocument doc : Trail (Addition String)).fault = none := by
  induction docs with
  | nil => intro graph; simp [processAll]
  | cons doc rest ih =>
      intro graph
      have hprocess : (graph.process doc).fault =
          (declareDocument doc : Trail (Addition String)).fault := rfl
      rw [processAll, hprocess]
      cases hfault : (declareDocument doc : Trail (Addition String)).fault with
      | some fault => simp [hfault]
      | none => simp [hfault, ih]

/-- Documents that are accepted add what they declare. -/
theorem processAll_declared (docs : List Document) :
    ∀ graph : Graph String, (graph.processAll docs).fault = none →
      (graph.processAll docs).graph = graph.addAll (declared docs) := by
  induction docs with
  | nil => intro graph _; rfl
  | cons doc rest ih =>
      intro graph h
      have hdoc : (graph.process doc).fault = none :=
        (processAll_accepted (doc :: rest) graph).mp h doc List.mem_cons_self
      rw [processAll, hdoc] at h ⊢
      show ((graph.process doc).graph.processAll rest).graph = _
      rw [ih _ h, show declared (doc :: rest) = (declareDocument doc).steps ++ declared rest from
        List.flatMap_cons, addAll, addAll, List.foldl_append]
      rfl

/-- What documents and then marking may leave behind: what the documents declare is added in some
order, and the candidates are gone through in some order. -/
def Outcome (docs : List Document) (change : Change String) : Prop :=
  ∃ (additions : List (Addition String)) (order : List String),
    additions.Perm (declared docs) ∧
    order.Perm ((Graph.empty : Graph String).addAll additions).candidates ∧
    change = ((Graph.empty : Graph String).addAll additions).tagAmong order

/-- Documents one after the other, and marking in its own order, are one way of leaving something
behind. -/
theorem outcome_processAll {docs : List Document}
    (h : ((Graph.empty : Graph String).processAll docs).fault = none) :
    Outcome docs ((Graph.empty : Graph String).processAll docs).graph.tagOrphans := by
  rw [processAll_declared docs Graph.empty h, tagOrphans_eq]
  exact ⟨declared docs, _, List.Perm.refl _, List.Perm.refl _, rfl⟩

/-- **THE SET OF DOCUMENTS** tells the graph: if the documents of one list are those of another, in
any order and with any repetition, and the first list is accepted, then so is the second, and
whatever the two leave behind, marking has no fault, the nodes have the same kinds, the edges of
each kind are the same set, and the same nodes are orphans.  If one list is an order of the other,
the edges of each kind are so too. -/
theorem graph_of_document_set {first second : List Document}
    (hset : ∀ doc, doc ∈ first ↔ doc ∈ second)
    (haccepted : ((Graph.empty : Graph String).processAll first).fault = none) :
    ((Graph.empty : Graph String).processAll second).fault = none ∧
    Outcome first ((Graph.empty : Graph String).processAll first).graph.tagOrphans ∧
    Outcome second ((Graph.empty : Graph String).processAll second).graph.tagOrphans ∧
    ∀ one two : Change String, Outcome first one → Outcome second two →
      one.fault = none ∧ two.fault = none ∧
      (∀ name : String, one.graph.kind? name = two.graph.kind? name) ∧
      one.graph.nodes.Perm two.graph.nodes ∧
      (∀ kind edge, edge ∈ one.graph.edgesOf kind ↔ edge ∈ two.graph.edgesOf kind) ∧
      one.graph.orphans.Perm two.graph.orphans ∧
      (first.Perm second → ∀ kind, (one.graph.edgesOf kind).Perm (two.graph.edgesOf kind)) := by
  have haccepted' : ((Graph.empty : Graph String).processAll second).fault = none := by
    rw [processAll_accepted] at haccepted ⊢
    exact fun doc hmem => haccepted doc ((hset doc).mpr hmem)
  refine ⟨haccepted', outcome_processAll haccepted, outcome_processAll haccepted', ?_⟩
  rintro _ _ ⟨adds, order, hadds, horder, rfl⟩ ⟨adds', order', hadds', horder', rfl⟩
  have hsame : ∀ addition, addition ∈ adds ↔ addition ∈ adds' := by
    intro addition
    rw [hadds.mem_iff, hadds'.mem_iff, declared, declared, List.mem_flatMap, List.mem_flatMap]
    simp only [hset]
  obtain ⟨hkinded, hplain⟩ := empty_kinded.addAll_of_mem_iff
    (fitsAll_declared first _) (fun _ => hadds.mem_iff)
  obtain ⟨hkinded', hplain'⟩ := empty_kinded.addAll_of_mem_iff
    (fitsAll_declared second _) (fun _ => hadds'.mem_iff)
  have hsets := addAll_sameSets hsame Graph.empty
  obtain ⟨hfault, hshape, hmarked, hkinds⟩ :=
    hkinded.tagAmong_candidates (hplain empty_unmarked) horder
  obtain ⟨hfault', hshape', hmarked', hkinds'⟩ :=
    hkinded'.tagAmong_candidates (hplain' empty_unmarked) horder'
  -- Marking asks for names, reachability and kinds, and all three agree.
  have heq : ∀ name : String,
      (((Graph.empty : Graph String).addAll adds).tagAmong order).graph.kind? name =
        (((Graph.empty : Graph String).addAll adds').tagAmong order').graph.kind? name := by
    intro name
    rw [hkinds, hkinds', reachesExplore_congr hsets.edge, hsets.known,
      hsets.kind? hkinded (hplain empty_unmarked) hkinded' (hplain' empty_unmarked)]
  have hnodes := nodes_perm hmarked hmarked' heq
  refine ⟨hfault, hfault', heq, hnodes, fun kind edge => ?_, ?_, fun hperm kind => ?_⟩
  · rw [hshape.edgesOf, hshape'.edgesOf]
    exact hsets.edge kind edge
  · exact (hnodes.filter _).map Prod.fst
  · rw [hshape.edgesOf, hshape'.edgesOf, edgesOf_addAll, edgesOf_addAll]
    refine List.Perm.append_left _ (List.Perm.filterMap _ ?_)
    exact hadds.trans ((hperm.flatMap_right _).trans hadds'.symm)

/-- The project `shop` backwards and then once more. -/
theorem shop_twice :
    (∀ doc, doc ∈ shop ↔ doc ∈ shop.reverse ++ shop) ∧
    ((Graph.empty : Graph String).processAll shop).fault = none ∧
    ((Graph.empty : Graph String).processAll (shop.reverse ++ shop)).graph.tagOrphans.graph.orphans
      = ["lost.view"] := by
  have hset : ∀ doc, doc ∈ shop ↔ doc ∈ shop.reverse ++ shop := by simp
  have haccepted : ((Graph.empty : Graph String).processAll shop).fault = none := by decide
  obtain ⟨_, hfirst, hsecond, hsame⟩ := graph_of_document_set hset haccepted
  obtain ⟨_, _, _, _, _, horphans, _⟩ := hsame _ _ hfirst hsecond
  refine ⟨hset, haccepted, List.perm_singleton.mp (horphans.symm.trans ?_)⟩
  rw [show ((Graph.empty : Graph String).processAll shop).graph.tagOrphans.graph.orphans =
    ["lost.view"] by decide]

end LookmlProject.Graph
