import LookmlProject.Proofs.Unordered

/-! # What holds of a graph at every moment

    A graph grows by documents and is marked now and then.  The work on a document
    may end early and leave a part of what it declares, and documents may follow a
    marking, so that a marked view is declared again.  `Kinded` survives all of it:

    * one call keeps it (`Call.kinded`), whatever part of a document was added;
    * so it holds of every graph that calls lead to (`Reached.kinded`);
    * a node stays, and stays what its name says (`Call.is`): at most a view
      becomes an orphan, or an orphan a view.

    What the invariant says of nodes and edges is then read off. -/

namespace LookmlProject.Graph

open Lookml

/-- One call: a document leaves the first few of its additions, or all of them, in some order; or
the candidates are gone through in some order and marked. -/
inductive Call : Graph String → Graph String → Prop where
  | process {graph : Graph String} (doc : Document) {part additions : List (Addition String)} :
      part <+: (declareDocument doc).steps → additions.Perm part →
      Call graph (graph.addAll additions)
  | mark {graph : Graph String} {order : List String} :
      order.Perm graph.candidates → Call graph (graph.tagAmong order).graph

/-- Calls lead from the empty graph to this one. -/
def Reached (graph : Graph String) : Prop := Relation.ReflTransGen Call Graph.empty graph

/-- Adding a document is a call, with or without a fault. -/
theorem call_process (graph : Graph String) (doc : Document) :
    Call graph (graph.process doc).graph :=
  .process doc (List.prefix_refl _) (List.Perm.refl _)

theorem call_tagOrphans (graph : Graph String) : Call graph graph.tagOrphans.graph := by
  rw [tagOrphans_eq]
  exact .mark (List.Perm.refl _)

/-- The node is there, and of the given kind; an orphan counts as a view. -/
def Is (graph : Graph String) (kind : NodeKind) (name : String) : Prop :=
  ∃ actual, graph.kind? name = some actual ∧ actual.ending = kind.ending

theorem NamedAs.of_ending {first second : NodeKind} {name : String} (h : NamedAs first name)
    (hending : first.ending = second.ending) : NamedAs second name := by
  obtain ⟨base, rfl⟩ := h
  exact ⟨base, by rw [hending]⟩

/-- In a kinded graph a node is what its name says. -/
theorem Kinded.is_iff {graph : Graph String} (h : graph.Kinded) (kind : NodeKind) (name : String) :
    graph.Is kind name ↔ graph.Known name ∧ NamedAs kind name := by
  constructor
  · rintro ⟨actual, hactual, hending⟩
    have hmem := (kind?_eq_some_iff h.distinct name actual).mp hactual
    exact ⟨List.mem_map.mpr ⟨_, hmem, rfl⟩, (h.node _ hmem).of_ending hending⟩
  · rintro ⟨hknown, hnamed⟩
    obtain ⟨actual, hactual, hnamed'⟩ := h.kind?_of_known hknown
    exact ⟨actual, hactual, hnamed'.ending_eq hnamed⟩

/-! ## One call -/

/-- **ONE CALL** keeps the invariant, also where the work on a document ended early. -/
theorem Call.kinded {graph next : Graph String} (h : graph.Call next) (hkinded : graph.Kinded) :
    next.Kinded := by
  cases h with
  | @process doc part additions hpart hperm =>
      obtain ⟨rest, hrest⟩ := hpart
      have hall := (declareDocument_sound doc graph (fun _ hname => nomatch hname)).1
      rw [← hrest, fitsAll_append] at hall
      exact (hkinded.addAll_of_mem_iff hall.1 (fun _ => hperm.mem_iff)).1
  | mark horder =>
      exact (tagAmong_kinds _ graph hkinded fun view hview =>
        hkinded.candidate_view (horder.mem_iff.mp hview)).2.2.1

/-- A call takes no node away. -/
theorem Call.known {graph next : Graph String} (h : graph.Call next) (hkinded : graph.Kinded)
    {name : String} (hname : graph.Known name) : next.Known name := by
  cases h with
  | process doc _ _ => exact (known_addAll name _ graph).mpr (Or.inl hname)
  | mark horder =>
      obtain ⟨_, hshape, _⟩ := tagAmong_kinds _ graph hkinded fun view hview =>
        hkinded.candidate_view (horder.mem_iff.mp hview)
      rw [Known, hshape.names]
      exact hname

/-- A node stays what it is. -/
theorem Call.is {graph next : Graph String} (h : graph.Call next) (hkinded : graph.Kinded)
    {kind : NodeKind} {name : String} (hname : graph.Is kind name) : next.Is kind name := by
  rw [hkinded.is_iff] at hname
  rw [(h.kinded hkinded).is_iff]
  exact hname.imp_left (h.known hkinded)

/-! ## Any number of calls -/

theorem calls_keep {graph later : Graph String} (h : Relation.ReflTransGen Call graph later)
    (hkinded : graph.Kinded) :
    later.Kinded ∧ ∀ kind name, graph.Is kind name → later.Is kind name := by
  induction h with
  | refl => exact ⟨hkinded, fun _ _ => id⟩
  | tail _ hcall ih =>
      obtain ⟨hmiddle, his⟩ := ih
      exact ⟨hcall.kinded hmiddle, fun kind name hname => hcall.is hmiddle (his kind name hname)⟩

theorem Reached.kinded {graph : Graph String} (h : graph.Reached) : graph.Kinded :=
  (calls_keep h empty_kinded).1

/-- The two ends of an edge tell its kind. -/
theorem Kinded.edge_kind {graph : Graph String} (h : graph.Kinded) {kind other : EdgeKind}
    {edge : Edge String} (hmem : edge ∈ graph.edgesOf kind) (hother : edge ∈ graph.edgesOf other) :
    kind = other := by
  have hsource := (h.source kind edge hmem).2.ending_eq (h.source other edge hother).2
  have htarget := (h.target kind edge hmem).2.ending_eq (h.target other edge hother).2
  cases kind <;> cases other <;> first | rfl | contradiction

/-- The name of a node tells its kind, a mark apart. -/
theorem Kinded.kind_of_name {graph : Graph String} (h : graph.Kinded) {name : String}
    {kind : NodeKind} (hkind : graph.kind? name = some kind) :
    (kind = .model ↔ NamedAs .model name) ∧ (kind = .explore ↔ NamedAs .explore name) ∧
      (kind = .view ∨ kind = .orphan ↔ NamedAs .view name) := by
  have hnamed : NamedAs kind name := h.node _ ((kind?_eq_some_iff h.distinct name kind).mp hkind)
  have hiff : ∀ other : NodeKind, NamedAs other name ↔ kind.ending = other.ending := fun other =>
    ⟨hnamed.ending_eq, hnamed.of_ending⟩
  rw [hiff, hiff, hiff]
  cases kind <;> decide

/-- **AT EVERY MOMENT** in the life of a graph, after any calls, also such as ended early: both
ends of every edge are nodes; a node is a model exactly if it is named as one, an explore exactly if
it is named as one, and a view or an orphan exactly if it is named as a view; edges of each kind
join the nodes that their kind asks for, so that no pair is an edge of two kinds; whatever calls
follow, every node stays what it is; and marking has no fault, in whatever order the candidates are
gone through. -/
theorem reached_graph_kinds {graph : Graph String} (h : graph.Reached) :
    (∀ kind, ∀ edge ∈ graph.edgesOf kind, graph.Known edge.1 ∧ graph.Known edge.2) ∧
    (∀ name kind, graph.kind? name = some kind →
      (kind = .model ↔ NamedAs .model name) ∧ (kind = .explore ↔ NamedAs .explore name) ∧
        (kind = .view ∨ kind = .orphan ↔ NamedAs .view name)) ∧
    (∀ kind, ∀ edge ∈ graph.edgesOf kind,
      graph.Is kind.source edge.1 ∧ graph.Is kind.target edge.2) ∧
    (∀ kind other edge, edge ∈ graph.edgesOf kind → edge ∈ graph.edgesOf other → kind = other) ∧
    (∀ later, Relation.ReflTransGen Call graph later →
      ∀ kind name, graph.Is kind name → later.Is kind name) ∧
    graph.tagOrphans.fault = none ∧
    (∀ order : List String, order.Perm graph.candidates → (graph.tagAmong order).fault = none) := by
  have hkinded := h.kinded
  have hmark : ∀ order : List String, order.Perm graph.candidates →
      (graph.tagAmong order).fault = none := fun order horder =>
    (tagAmong_kinds order graph hkinded fun view hview =>
      hkinded.candidate_view (horder.mem_iff.mp hview)).1
  refine ⟨?_, fun name kind => hkinded.kind_of_name, ?_, ?_, ?_, ?_, hmark⟩
  · intro kind edge hmem
    exact ⟨(hkinded.source kind edge hmem).1, (hkinded.target kind edge hmem).1⟩
  · intro kind edge hmem
    exact ⟨(hkinded.is_iff _ _).mpr (hkinded.source kind edge hmem),
      (hkinded.is_iff _ _).mpr (hkinded.target kind edge hmem)⟩
  · intro kind other edge hmem hother
    exact hkinded.edge_kind hmem hother
  · intro later hcalls
    exact (calls_keep hcalls hkinded).2
  · rw [tagOrphans_eq]
    exact hmark _ (List.Perm.refl _)

/-- A view that extends `base` and then something that is no name. -/
def halfRead : Document :=
  ⟨"a.view.lkml", "a.view.lkml", "a", .view,
    [("views", .list [.record [("name", .text "a"),
      ("extends", .list [.text "base", .int 1, .text "never"])]])]⟩

/-- A document of which a part is added, a marking, and the document once more: the first view is
declared again, and the parent, whose declaration is cut off behind it, as well. -/
theorem halfRead_marked_and_read_again :
    ((Graph.empty : Graph String).process halfRead).fault = some .wrongShape ∧
    ((Graph.empty : Graph String).process halfRead).graph.tagOrphans.graph.nodes =
      [("a.view", .orphan), ("base.view", .orphan)] ∧
    ((((Graph.empty : Graph String).process halfRead).graph.tagOrphans.graph.process
      halfRead).graph.tagOrphans.fault = none) := by
  refine ⟨by decide, by decide, ?_⟩
  have hreached : Reached
      (((Graph.empty : Graph String).process halfRead).graph.tagOrphans.graph.process
        halfRead).graph :=
    ((Relation.ReflTransGen.single (call_process _ halfRead)).tail (call_tagOrphans _)).tail
      (call_process _ halfRead)
  obtain ⟨_, _, _, _, _, hfault, _⟩ := reached_graph_kinds hreached
  exact hfault

end LookmlProject.Graph
