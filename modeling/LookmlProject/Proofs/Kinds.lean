import LookmlProject.Graph.Declarations
import LookmlProject.Proofs.Reachability

/-! # Names tell what nodes are

    The graph of a project keeps the kind of a node in one place and its name in
    another; that they agree is an invariant (`Kinded`): a node has the ending of
    its kind, and an edge joins known nodes with the endings of its own kind.

    * One addition keeps the invariant if it fits the graph (`Kinded.add`).
    * What a document adds fits, addition by addition, also where the work on the
      document ends early.  This is shown by triples `Trail.Sound before trail after`:
      if the names in `before` are nodes, then all that the trail adds fits, and
      if the trail has no fault, the names in `after` are nodes at its end.
    * So every graph that documents build is kinded, and none of its nodes is an
      orphan before orphans are marked (`processAll_kinded`). -/

namespace LookmlProject

/-- How the names of nodes of a kind end.  An orphan is a view. -/
def NodeKind.ending : NodeKind → String
  | .model => ".model"
  | .explore => ".explore"
  | .view => ".view"
  | .orphan => ".view"

/-- Orphans apart, the ending tells the kind. -/
theorem NodeKind.eq_of_ending {first second : NodeKind} (h : first.ending = second.ending)
    (hfirst : first ≠ .orphan) (hsecond : second ≠ .orphan) : first = second := by
  cases first <;> cases second <;> first | rfl | contradiction

/-- What the edges of a kind start at. -/
def EdgeKind.source : EdgeKind → NodeKind
  | .exploreToModel => .explore
  | .viewToExplore => .view
  | .exploreToExplore => .explore
  | .viewToView => .view

/-- What the edges of a kind lead to. -/
def EdgeKind.target : EdgeKind → NodeKind
  | .exploreToModel => .model
  | .viewToExplore => .explore
  | .exploreToExplore => .explore
  | .viewToView => .view

namespace Graph

/-- A name with the ending of a kind. -/
def NamedAs (kind : NodeKind) (name : String) : Prop := ∃ base : String, name = base ++ kind.ending

/-- The last character of a name is that of its ending, and tells the endings apart. -/
theorem NamedAs.getLast {kind : NodeKind} {name : String} (h : NamedAs kind name) :
    name.toList.getLast? = kind.ending.toList.getLast? := by
  obtain ⟨base, rfl⟩ := h
  rw [String.toList_append]
  cases kind <;> simp [NodeKind.ending]

/-- A name has one ending. -/
theorem NamedAs.ending_eq {first second : NodeKind} {name : String} (h : NamedAs first name)
    (h' : NamedAs second name) : first.ending = second.ending := by
  have hlast := h.getLast.symm.trans h'.getLast
  -- The three endings differ in their last characters.
  cases first <;> cases second <;> first | rfl | exact absurd hlast (by decide)

/-! ## Nodes as a map -/

section Nodes

variable {Name : Type} [BEq Name]

/-- A name that is a node of the graph. -/
def Known (graph : Graph Name) (name : Name) : Prop := name ∈ graph.nodes.map Prod.fst

variable [LawfulBEq Name]

/-- Setting the kind of a name changes what is found under that name only. -/
theorem lookup_setKind (nodes : List (Name × NodeKind)) (name : Name) (kind : NodeKind)
    (other : Name) :
    (setKind nodes name kind).lookup other =
      if other == name then some kind else nodes.lookup other := by
  induction nodes with
  | nil =>
      simp only [setKind, List.lookup_cons, List.lookup_nil]
      cases other == name <;> rfl
  | cons first rest ih =>
      obtain ⟨n, k⟩ := first
      simp only [setKind]
      cases hn : n == name with
      | true =>
          rw [if_pos rfl, List.lookup_cons, List.lookup_cons, eq_of_beq hn]
          cases other == name <;> rfl
      | false =>
          rw [if_neg Bool.false_ne_true, List.lookup_cons, List.lookup_cons, ih]
          cases ho : other == n with
          | true => rw [eq_of_beq ho, hn]; rfl
          | false => rfl

/-- Adding a node sets its kind and no other. -/
theorem kind?_addNode (graph : Graph Name) (name : Name) (kind : NodeKind) (other : Name) :
    (graph.addNode name kind).kind? other =
      if other == name then some kind else graph.kind? other :=
  lookup_setKind graph.nodes name kind other

/-- Setting the kind of a node keeps the names and their order. -/
theorem setKind_names_of_mem {nodes : List (Name × NodeKind)} {name : Name} (kind : NodeKind)
    (h : name ∈ nodes.map Prod.fst) :
    (setKind nodes name kind).map Prod.fst = nodes.map Prod.fst := by
  induction nodes with
  | nil => exact nomatch h
  | cons first rest ih =>
      obtain ⟨n, k⟩ := first
      simp only [setKind]
      cases hn : n == name with
      | true => rw [if_pos rfl]; rfl
      | false =>
          rw [if_neg Bool.false_ne_true, List.map_cons, List.map_cons, ih]
          rcases List.mem_cons.mp h with heq | hmem
          · rw [heq] at hn
            exact absurd hn (by simp)
          · exact hmem

/-- A new node stands behind the others. -/
theorem setKind_names_of_not_mem {nodes : List (Name × NodeKind)} {name : Name} (kind : NodeKind)
    (h : name ∉ nodes.map Prod.fst) :
    (setKind nodes name kind).map Prod.fst = nodes.map Prod.fst ++ [name] := by
  induction nodes with
  | nil => rfl
  | cons first rest ih =>
      obtain ⟨n, k⟩ := first
      simp only [setKind]
      cases hn : n == name with
      | true => exact absurd (by simp [eq_of_beq hn]) h
      | false =>
          rw [if_neg Bool.false_ne_true, List.map_cons, List.map_cons, ih]
          · rfl
          · exact fun hmem => h (List.mem_cons_of_mem _ hmem)

/-- Distinct names stay distinct. -/
theorem setKind_distinct {nodes : List (Name × NodeKind)} {name : Name} (kind : NodeKind)
    (h : (nodes.map Prod.fst).Nodup) : ((setKind nodes name kind).map Prod.fst).Nodup := by
  by_cases hmem : name ∈ nodes.map Prod.fst
  · rw [setKind_names_of_mem kind hmem]
    exact h
  · rw [setKind_names_of_not_mem kind hmem, List.nodup_append]
    refine ⟨h, by simp, ?_⟩
    intro first hfirst second hsecond heq
    rw [List.mem_singleton.mp hsecond] at heq
    exact hmem (heq ▸ hfirst)

/-- Adding a node makes its name known, and no other. -/
theorem known_addNode (graph : Graph Name) (name : Name) (kind : NodeKind) (other : Name) :
    (graph.addNode name kind).Known other ↔ other = name ∨ graph.Known other := by
  by_cases h : name ∈ graph.nodes.map Prod.fst
  · rw [Known, Known, addNode, setKind_names_of_mem kind h]
    constructor
    · exact Or.inr
    · rintro (rfl | hmem)
      · exact h
      · exact hmem
  · rw [Known, Known, addNode, setKind_names_of_not_mem kind h, List.mem_append,
      List.mem_singleton]
    exact Or.comm

/-- A node is the one that was set or one of those before. -/
theorem mem_setKind {nodes : List (Name × NodeKind)} {name : Name} {kind : NodeKind}
    {node : Name × NodeKind} (h : node ∈ setKind nodes name kind) :
    node = (name, kind) ∨ node ∈ nodes := by
  induction nodes with
  | nil => exact Or.inl (List.mem_singleton.mp h)
  | cons first rest ih =>
      obtain ⟨n, k⟩ := first
      simp only [setKind] at h
      cases hn : n == name with
      | true =>
          rw [hn, if_pos rfl, eq_of_beq hn] at h
          rcases List.mem_cons.mp h with heq | hmem
          · exact Or.inl heq
          · exact Or.inr (List.mem_cons_of_mem _ hmem)
      | false =>
          rw [hn, if_neg Bool.false_ne_true] at h
          rcases List.mem_cons.mp h with heq | hmem
          · exact Or.inr (heq ▸ List.mem_cons_self)
          · exact (ih hmem).imp_right (List.mem_cons_of_mem _)

/-- Where names are distinct, the kind of a node is the one that stands with its name. -/
theorem kind?_eq_some_iff {graph : Graph Name} (h : (graph.nodes.map Prod.fst).Nodup)
    (name : Name) (kind : NodeKind) :
    graph.kind? name = some kind ↔ (name, kind) ∈ graph.nodes := by
  obtain ⟨nodes, _⟩ := graph
  simp only [kind?] at *
  induction nodes with
  | nil => simp
  | cons first rest ih =>
      obtain ⟨n, k⟩ := first
      rw [List.map_cons, List.nodup_cons] at h
      rw [List.lookup_cons, List.mem_cons]
      cases hn : name == n with
      | true =>
          have heq : name = n := eq_of_beq hn
          constructor
          · intro hk
            exact Or.inl (by rw [heq, Option.some.inj hk])
          · rintro (hk | hmem)
            · rw [(Prod.mk.inj hk).2]
            · exact absurd (List.mem_map.mpr ⟨_, hmem, heq⟩) h.1
      | false =>
          rw [ih h.2]
          constructor
          · exact Or.inr
          · rintro (hk | hmem)
            · rw [(Prod.mk.inj hk).1] at hn
              exact absurd hn (by simp)
            · exact hmem

end Nodes

/-! ## The invariant -/

/-- Nodes are distinct and named as their kinds, and edges join nodes that are named as the kind of
the edge asks. -/
structure Kinded (graph : Graph String) : Prop where
  distinct : (graph.nodes.map Prod.fst).Nodup
  node : ∀ node ∈ graph.nodes, NamedAs node.2 node.1
  source : ∀ kind, ∀ edge ∈ graph.edgesOf kind, graph.Known edge.1 ∧ NamedAs kind.source edge.1
  target : ∀ kind, ∀ edge ∈ graph.edgesOf kind, graph.Known edge.2 ∧ NamedAs kind.target edge.2

/-- No node is marked as an orphan. -/
def Unmarked (graph : Graph String) : Prop := ∀ node ∈ graph.nodes, node.2 ≠ .orphan

/-- What a declaration may add: a node that is named as its kind and is no orphan, and an edge
between nodes that are there. -/
def Fits (graph : Graph String) : Addition String → Prop
  | .node name kind => NamedAs kind name ∧ kind ≠ .orphan
  | .edge kind source target =>
      (graph.Known source ∧ NamedAs kind.source source) ∧
      (graph.Known target ∧ NamedAs kind.target target)

/-- Additions of which each fits the graph that those before it have made. -/
def FitsAll : Graph String → List (Addition String) → Prop
  | _, [] => True
  | graph, addition :: rest => graph.Fits addition ∧ FitsAll (graph.add addition) rest

/-- An edge of a graph is an edge of one of the four kinds. -/
theorem mem_edges_iff {Name : Type} (graph : Graph Name) (edge : Edge Name) :
    edge ∈ graph.edges ↔ ∃ kind, edge ∈ graph.edgesOf kind := by
  simp only [edges, List.mem_append]
  constructor
  · rintro (((h | h) | h) | h)
    · exact ⟨.exploreToModel, h⟩
    · exact ⟨.viewToExplore, h⟩
    · exact ⟨.exploreToExplore, h⟩
    · exact ⟨.viewToView, h⟩
  · rintro ⟨kind, h⟩
    cases kind with
    | exploreToModel => exact Or.inl (Or.inl (Or.inl h))
    | viewToExplore => exact Or.inl (Or.inl (Or.inr h))
    | exploreToExplore => exact Or.inl (Or.inr h)
    | viewToView => exact Or.inr h

theorem edgesOf_addNode {Name : Type} [BEq Name] (graph : Graph Name) (name : Name)
    (nodeKind : NodeKind) (kind : EdgeKind) :
    (graph.addNode name nodeKind).edgesOf kind = graph.edgesOf kind := by
  cases kind <;> rfl

/-- A new edge stands behind those of its own kind. -/
theorem edgesOf_addEdge {Name : Type} (graph : Graph Name) (kind : EdgeKind) (edge : Edge Name)
    (other : EdgeKind) :
    (graph.addEdge kind edge).edgesOf other =
      graph.edgesOf other ++ if other = kind then [edge] else [] := by
  cases kind <;> cases other <;> simp [addEdge, edgesOf]

theorem nodes_addEdge {Name : Type} (graph : Graph Name) (kind : EdgeKind) (edge : Edge Name) :
    (graph.addEdge kind edge).nodes = graph.nodes := by
  cases kind <;> rfl

/-- No addition takes a node away. -/
theorem known_add {graph : Graph String} {name : String} (addition : Addition String)
    (h : graph.Known name) : (graph.add addition).Known name := by
  cases addition with
  | node other kind => exact (known_addNode graph other kind name).mpr (Or.inr h)
  | edge kind source target =>
      show name ∈ (graph.addEdge kind (source, target)).nodes.map Prod.fst
      rw [nodes_addEdge]
      exact h

/-- Naming a node as its kind keeps the invariant, whether the node is new or not. -/
theorem Kinded.addNode {graph : Graph String} (h : graph.Kinded) {name : String} {kind : NodeKind}
    (hname : NamedAs kind name) : (graph.addNode name kind).Kinded where
  distinct := setKind_distinct kind h.distinct
  node := by
    intro node hnode
    rcases mem_setKind hnode with heq | hmem
    · rw [heq]
      exact hname
    · exact h.node node hmem
  source := by
    intro edgeKind edge he
    rw [edgesOf_addNode] at he
    obtain ⟨hknown, hnamed⟩ := h.source edgeKind edge he
    exact ⟨(known_addNode graph name kind edge.1).mpr (Or.inr hknown), hnamed⟩
  target := by
    intro edgeKind edge he
    rw [edgesOf_addNode] at he
    obtain ⟨hknown, hnamed⟩ := h.target edgeKind edge he
    exact ⟨(known_addNode graph name kind edge.2).mpr (Or.inr hknown), hnamed⟩

/-- An edge that fits keeps the invariant. -/
theorem Kinded.addEdge {graph : Graph String} (h : graph.Kinded) {kind : EdgeKind}
    {edge : Edge String} (hsource : graph.Known edge.1 ∧ NamedAs kind.source edge.1)
    (htarget : graph.Known edge.2 ∧ NamedAs kind.target edge.2) :
    (graph.addEdge kind edge).Kinded where
  distinct := by rw [nodes_addEdge]; exact h.distinct
  node := by rw [nodes_addEdge]; exact h.node
  source := by
    intro other e he
    rw [edgesOf_addEdge] at he
    rw [Known, nodes_addEdge]
    rcases List.mem_append.mp he with hold | hnew
    · exact h.source other e hold
    · -- The new edge is of the kind that is looked at, or there is none.
      split at hnew
      · next heq => rw [List.mem_singleton.mp hnew, heq]; exact hsource
      · exact nomatch hnew
  target := by
    intro other e he
    rw [edgesOf_addEdge] at he
    rw [Known, nodes_addEdge]
    rcases List.mem_append.mp he with hold | hnew
    · exact h.target other e hold
    · split at hnew
      · next heq => rw [List.mem_singleton.mp hnew, heq]; exact htarget
      · exact nomatch hnew

/-- **ONE ADDITION** that fits keeps the invariant and marks no orphan. -/
theorem Kinded.add {graph : Graph String} (h : graph.Kinded) {addition : Addition String}
    (hfits : graph.Fits addition) :
    (graph.add addition).Kinded ∧ (graph.Unmarked → (graph.add addition).Unmarked) := by
  cases addition with
  | node name kind =>
      refine ⟨h.addNode hfits.1, fun hplain node hnode => ?_⟩
      rcases mem_setKind hnode with heq | hmem
      · rw [heq]
        exact hfits.2
      · exact hplain node hmem
  | edge kind source target =>
      refine ⟨h.addEdge hfits.1 hfits.2, fun hplain node hnode => ?_⟩
      rw [Graph.add, nodes_addEdge] at hnode
      exact hplain node hnode

/-- Additions that all fit keep the invariant and mark no orphan. -/
theorem Kinded.addAll (additions : List (Addition String)) :
    ∀ graph : Graph String, graph.Kinded → graph.FitsAll additions →
      (graph.addAll additions).Kinded ∧ (graph.Unmarked → (graph.addAll additions).Unmarked) := by
  induction additions with
  | nil => intro graph h _; exact ⟨h, id⟩
  | cons addition rest ih =>
      intro graph h hfits
      obtain ⟨hkinded, hplain⟩ := h.add hfits.1
      obtain ⟨hkinded', hplain'⟩ := ih (graph.add addition) hkinded hfits.2
      exact ⟨hkinded', fun hp => hplain' (hplain hp)⟩

/-- Additions in a row fit if the first fit, and the others fit the graph that these have made. -/
theorem fitsAll_append (first second : List (Addition String)) :
    ∀ graph : Graph String, graph.FitsAll (first ++ second) ↔
      graph.FitsAll first ∧ (graph.addAll first).FitsAll second := by
  induction first with
  | nil => intro graph; simp [FitsAll, Graph.addAll]
  | cons addition rest ih =>
      intro graph
      simp only [List.cons_append, FitsAll, ih, and_assoc]
      rfl

/-- The empty graph is kinded. -/
theorem empty_kinded : (Graph.empty : Graph String).Kinded where
  distinct := List.nodup_nil
  node := fun _ h => nomatch h
  source := by intro kind edge h; cases kind <;> exact nomatch h
  target := by intro kind edge h; cases kind <;> exact nomatch h

theorem empty_unmarked : (Graph.empty : Graph String).Unmarked := fun _ h => nomatch h

end Graph

/-! ## What trails add -/

namespace Trail

open LookmlProject.Graph

/-- Every name in a list is a node. -/
def Holds (names : List String) (graph : Graph String) : Prop := ∀ name ∈ names, graph.Known name

/-- If the names `before` are nodes, all that a trail adds fits, and if the trail has no fault, the
names `after` are nodes at its end. -/
def Sound (before : List String) (trail : Trail (Addition String)) (after : List String) : Prop :=
  ∀ graph : Graph String, Holds before graph →
    graph.FitsAll trail.steps ∧ (trail.fault = none → Holds after (graph.addAll trail.steps))

variable {before middle after : List String} {first second : Trail (Addition String)}

/-- Fewer names may be promised at the end. -/
theorem Sound.weaken (h : Sound before first middle) (hsub : after ⊆ middle) :
    Sound before first after := by
  intro graph hbefore
  obtain ⟨hfits, hafter⟩ := h graph hbefore
  exact ⟨hfits, fun hfault name hname => hafter hfault name (hsub hname)⟩

theorem Sound.nil (hsub : after ⊆ before) : Sound before Trail.nil after :=
  fun _ hbefore => ⟨trivial, fun _ name hname => hbefore name (hsub hname)⟩

/-- A trail that stops at once promises everything: no end is reached. -/
theorem Sound.stop (fault : Fault) : Sound before (Trail.stop fault) after :=
  fun _ _ => ⟨trivial, fun h => nomatch h⟩

/-- One trail after another: the second starts where the first has left the graph, unless the first
ended early. -/
theorem Sound.append (h : Sound before first middle) (h' : Sound middle second after) :
    Sound before (first ++ second) after := by
  intro graph hbefore
  obtain ⟨hfits, hmiddle⟩ := h graph hbefore
  -- If the first trail stops, nothing of the second is added; else its names are those that the
  -- second needs.
  cases hfault : first.fault with
  | some fault =>
      rw [show first ++ second = first by
        show Trail.append first second = first; rw [Trail.append, hfault]]
      refine ⟨hfits, fun hnone => ?_⟩
      rw [hfault] at hnone
      cases hnone
  | none =>
      rw [show first ++ second = ⟨first.steps ++ second.steps, second.fault⟩ by
        show Trail.append first second = _; rw [Trail.append, hfault]]
      obtain ⟨hfits', hafter⟩ := h' (graph.addAll first.steps) (hmiddle hfault)
      refine ⟨(fitsAll_append first.steps second.steps graph).mpr ⟨hfits, hfits'⟩, ?_⟩
      intro hnone
      show Holds after (graph.addAll (first.steps ++ second.steps))
      rw [Graph.addAll, List.foldl_append]
      exact hafter hnone

/-- A further trail that keeps what it needs. -/
theorem Sound.andThen (h : Sound before first middle) (h' : Sound middle second middle) :
    Sound before (first ++ second) middle :=
  h.append h'

/-- A result that a trail needs is either there, or its fault ends the trail. -/
theorem Sound.need {α : Type} {result : Except Fault α} {next : α → Trail (Addition String)}
    (h : ∀ a, Sound before (next a) after) : Sound before (Trail.need result next) after := by
  cases result with
  | error fault => exact Sound.stop fault
  | ok a => exact h a

/-- Trails that keep the same names can follow one another for every element of a list. -/
theorem Sound.flatMap {α : Type} {work : α → Trail (Addition String)}
    (h : ∀ a, Sound before (work a) before) :
    ∀ items : List α, Sound before (Trail.flatMap work items) before := by
  intro items
  induction items with
  | nil => exact Sound.nil (fun _ hname => hname)
  | cons item rest ih => exact (h item).append ih

/-- A node that is named as its kind can be added anywhere. -/
theorem Sound.node {kind : NodeKind} {name : String} (hname : NamedAs kind name)
    (hkind : kind ≠ .orphan) : Sound before (Trail.of [.node name kind]) (name :: before) := by
  intro graph hbefore
  refine ⟨⟨⟨hname, hkind⟩, trivial⟩, fun _ other hother => ?_⟩
  rcases List.mem_cons.mp hother with rfl | hmem
  · exact (known_addNode graph other kind other).mpr (Or.inl rfl)
  · exact (known_addNode graph name kind other).mpr (Or.inr (hbefore other hmem))

/-- A node together with an edge from it to a node that is there. -/
theorem Sound.link (kind : EdgeKind) {name target : String} (hname : NamedAs kind.source name)
    (hkind : kind.source ≠ .orphan) (hmem : target ∈ before)
    (htarget : NamedAs kind.target target) :
    Sound before (Trail.of [.node name kind.source, .edge kind name target]) before := by
  intro graph hbefore
  have hknown : ∀ other, other = name ∨ graph.Known other →
      (graph.addNode name kind.source).Known other := fun other =>
    (known_addNode graph name kind.source other).mpr
  refine ⟨⟨⟨hname, hkind⟩, ⟨⟨hknown name (Or.inl rfl), hname⟩,
    ⟨hknown target (Or.inr (hbefore target hmem)), htarget⟩⟩, trivial⟩, ?_⟩
  intro _ other hother
  exact known_add (.edge kind name target) (hknown other (Or.inr (hbefore other hother)))

/-- Trails with given steps follow one another as their lists do. -/
theorem Sound.of_flatMap {α : Type} {adds : α → List (Addition String)}
    (h : ∀ a, Sound before (Trail.of (adds a)) before) :
    ∀ items : List α, Sound before (Trail.of (items.flatMap adds)) before := by
  intro items
  induction items with
  | nil => exact Sound.nil (fun _ hname => hname)
  | cons item rest ih => exact (h item).append ih

end Trail

/-! ## What documents add -/

namespace Graph

open Trail Lookml

theorem viewNode_named (name : String) : NamedAs .view (viewNode name) := ⟨name, rfl⟩

theorem exploreNode_named (name : String) : NamedAs .explore (exploreNode name) := ⟨name, rfl⟩

theorem modelNode_named (name : String) : NamedAs .model (modelNode name) := ⟨name, rfl⟩

/-- A view can be linked to a view that is a node. -/
theorem viewBefore_sound {names : List String} {target : String} (hmem : target ∈ names)
    (htarget : NamedAs .view target) (name : String) :
    Sound names (Trail.of (viewBefore target name)) names :=
  Sound.link .viewToView (viewNode_named name) (by decide) hmem htarget

/-- A view can be linked to an explore that is a node. -/
theorem viewIn_sound {names : List String} {target : String} (hmem : target ∈ names)
    (htarget : NamedAs .explore target) (name : String) :
    Sound names (Trail.of (viewIn target name)) names :=
  Sound.link .viewToExplore (viewNode_named name) (by decide) hmem htarget

/-- An explore can be linked to an explore that is a node. -/
theorem exploreBefore_sound {names : List String} {target : String} (hmem : target ∈ names)
    (htarget : NamedAs .explore target) (name : String) :
    Sound names (Trail.of (exploreBefore target name)) names :=
  Sound.link .exploreToExplore (exploreNode_named name) (by decide) hmem htarget

/-- What fits for each name fits for a list of names, whatever the list holds. -/
theorem eachName_sound {before : List String} {adds : String → List (Addition String)}
    (h : ∀ name, Sound before (Trail.of (adds name)) before) (names : Value) :
    Sound before (eachName names adds) before :=
  Sound.need fun items => Sound.flatMap (fun _ => Sound.need h) items

/-- What stands under a key fits, and so does what is added without the key. -/
theorem underKey_sound {before after : List String} {declaration : Value} {key : String}
    {adds : Value → Trail (Addition String)} {otherwise : Trail (Addition String)}
    (h : ∀ value, Sound before (adds value) after) (hother : Sound before otherwise after) :
    Sound before (underKey declaration key adds otherwise) after := by
  refine Sound.need fun present => ?_
  cases present with
  | true => exact Sound.need h
  | false => exact hother

/-- A view adds nodes and edges that fit: itself, the views that its query names and those it
extends. -/
theorem declareView_sound (view : Value) : Sound [] (declareView view) [] := by
  refine Sound.need fun name => ?_
  have hnamed : NamedAs .view (viewNode name) := viewNode_named name
  have hlink : ∀ parent, Sound [viewNode name] (Trail.of (viewBefore (viewNode name) parent))
      [viewNode name] := viewBefore_sound (by simp) hnamed
  have hnode : Sound [] (Trail.of [.node (viewNode name) .view]) [viewNode name] :=
    Sound.node hnamed (by decide)
  refine Sound.weaken ((hnode.andThen ?_).andThen ?_) (List.nil_subset _)
  · refine Sound.need fun sql => ?_
    split
    · exact Sound.need fun text => Sound.of_flatMap hlink (references text)
    · exact Sound.nil (fun _ h => h)
  · exact underKey_sound (eachName_sound hlink) (Sound.nil (fun _ h => h))

/-- A join adds a view that fits, with an edge to its explore. -/
theorem declareJoin_sound {names : List String} {target : String} (hmem : target ∈ names)
    (htarget : NamedAs .explore target) (join : Value) :
    Sound names (declareJoin target join) names :=
  Sound.need fun _ => Sound.need fun name => viewIn_sound hmem htarget name

/-- The base view of an explore fits, whichever key names it, and an extension need not have one. -/
theorem declareBase_sound {names : List String} {target : String} (hmem : target ∈ names)
    (htarget : NamedAs .explore target) (explore : Value) :
    Sound names (declareBase target explore) names := by
  have hnamed : ∀ v : Value, Sound names
      (Trail.need v.asText fun name => Trail.of (viewIn target name)) names :=
    fun _ => Sound.need fun name => viewIn_sound hmem htarget name
  refine underKey_sound hnamed (underKey_sound hnamed (Sound.need fun extending => ?_))
  cases extending with
  | true => exact Sound.nil (fun _ h => h)
  | false => exact Sound.need hnamed

/-- An explore adds nodes and edges that fit, provided that its model is a node. -/
theorem declareExplore_sound (model : Option String) (hmodel : ∀ m ∈ model, NamedAs .model m)
    (explore : Value) : Sound model.toList (declareExplore model explore) model.toList := by
  refine Sound.need fun name => ?_
  have hnamed : NamedAs .explore (exploreNode name) := exploreNode_named name
  have hmem : exploreNode name ∈ exploreNode name :: model.toList := by simp
  have hnode : Sound model.toList (Trail.of [.node (exploreNode name) .explore])
      (exploreNode name :: model.toList) := Sound.node hnamed (by decide)
  -- The explore is a node from here on, and each of the four parts keeps it and the model.
  refine Sound.weaken ((((hnode.andThen ?_).andThen ?_).andThen ?_).andThen ?_)
    (List.subset_cons_self _ _)
  · cases model with
    | none => exact Sound.nil (fun _ h => h)
    | some m =>
        intro graph hbefore
        refine ⟨⟨⟨⟨hbefore _ (by simp), hnamed⟩, ⟨hbefore m (by simp), hmodel m rfl⟩⟩, trivial⟩, ?_⟩
        intro _ other hother
        exact known_add (.edge .exploreToModel (exploreNode name) m) (hbefore other hother)
  · exact underKey_sound (eachName_sound (exploreBefore_sound hmem hnamed))
      (Sound.nil (fun _ h => h))
  · exact declareBase_sound hmem hnamed explore
  · exact underKey_sound
      (fun joins => Sound.need fun items => Sound.flatMap (declareJoin_sound hmem hnamed) items)
      (Sound.nil (fun _ h => h))

/-- **WHAT A DOCUMENT ADDS** fits every graph, whatever the document holds and also if the work on
it ends early. -/
theorem declareDocument_sound (doc : Document) : Sound [] (declareDocument doc) [] := by
  rw [declareDocument]
  split
  · exact Sound.need fun items => Sound.flatMap declareView_sound items
  · split
    · have hnamed : NamedAs .model (modelNode doc.baseName) := modelNode_named doc.baseName
      have hnode : Sound [] (Trail.of [.node (modelNode doc.baseName) .model])
          [modelNode doc.baseName] := Sound.node hnamed (by decide)
      refine Sound.weaken (hnode.andThen ?_) (List.nil_subset _)
      split
      · refine Sound.need fun items => Sound.flatMap ?_ items
        refine declareExplore_sound (some (modelNode doc.baseName)) ?_
        rintro m ⟨⟩
        exact hnamed
      · exact Sound.nil (fun _ h => h)
    · split
      · exact Sound.need fun items => Sound.flatMap
          (declareExplore_sound none (fun _ h => nomatch h)) items
      · exact Sound.stop _

/-- Adding a document keeps the invariant, also if the work on it ends early. -/
theorem Kinded.process {graph : Graph String} (h : graph.Kinded) (doc : Document) :
    (graph.process doc).graph.Kinded ∧
      (graph.Unmarked → (graph.process doc).graph.Unmarked) :=
  Kinded.addAll (declareDocument doc).steps graph h
    (declareDocument_sound doc graph (fun _ hname => nomatch hname)).1

/-- Adds documents in order, up to the first fault. -/
def processAll {Name : Type} [NodeName Name] [BEq Name] (graph : Graph Name) :
    List Document → Change Name
  | [] => ⟨graph, none⟩
  | doc :: rest =>
      match (graph.process doc).fault with
      | some fault => ⟨(graph.process doc).graph, some fault⟩
      | none => (graph.process doc).graph.processAll rest

/-- The graph of documents is kinded, and none of its nodes is marked. -/
theorem processAll_kinded (docs : List Document) :
    ∀ graph : Graph String, graph.Kinded → graph.Unmarked →
      (graph.processAll docs).graph.Kinded ∧ (graph.processAll docs).graph.Unmarked := by
  induction docs with
  | nil => intro graph h hplain; exact ⟨h, hplain⟩
  | cons doc rest ih =>
      intro graph h hplain
      obtain ⟨hkinded, hunmarked⟩ := h.process doc
      rw [processAll]
      -- A fault ends the work, and the graph is left as the document has made it so far.
      split
      · exact ⟨hkinded, hunmarked hplain⟩
      · exact ih _ hkinded (hunmarked hplain)

end Graph

end LookmlProject
