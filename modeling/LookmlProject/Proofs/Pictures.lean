import LookmlProject.Graph.Drawing
import LookmlProject.Proofs.ValueNames

/-! # A picture shows its part of the graph, and all of it has a colour

    An edge of a picture brings its nodes along, and an edge that is added again
    gets another weight.  Neither happens in a graph that calls lead to:

    * adding edges whose ends are there adds no node, and every edge added has the
      weight it is added with (`addEdges_of_known`);
    * the ends of an edge tell its kind, so no edge is added with two weights, and
      the whole picture shows the graph as it is (`Kinded.draws_picture`);
    * what can be reached is left by no edge, so the part with those nodes has every
      edge that starts in it (`Draws.restrict`).

    A picture is made of a graph with values as names, and `asValues` carries these
    facts over. -/

namespace LookmlProject

/-- The weight with which edges of a kind are drawn. -/
def EdgeKind.weight : EdgeKind → Nat
  | .exploreToModel | .viewToExplore => 4
  | .exploreToExplore | .viewToView => 8

namespace Picture

variable {Name : Type} [BEq Name] [LawfulBEq Name]

theorem addNode_of_mem {nodes : List Name} {name : Name} (h : name ∈ nodes) :
    addNode nodes name = nodes := by
  rw [addNode, if_pos (List.contains_iff_mem.mpr h)]

/-- The edges with a weight are those from before and the one that it is set for. -/
theorem mem_keys_setWeight (edges : List (Edge Name × Nat)) (edge : Edge Name) (weight : Nat)
    (other : Edge Name) :
    other ∈ (setWeight edges edge weight).map Prod.fst ↔
      other = edge ∨ other ∈ edges.map Prod.fst := by
  induction edges with
  | nil => simp [setWeight]
  | cons first rest ih =>
      obtain ⟨e, w⟩ := first
      rw [setWeight]
      cases he : e == edge with
      | true => simp [eq_of_beq he]
      | false =>
          rw [if_neg Bool.false_ne_true, List.map_cons, List.mem_cons, ih, List.map_cons,
            List.mem_cons]
          exact or_left_comm

/-- Setting a weight, where every edge has one weight: the edge has the new weight only, and the
others have what they had. -/
theorem mem_setWeight (edges : List (Edge Name × Nat)) (edge : Edge Name) (weight : Nat)
    (h : (edges.map Prod.fst).Nodup) :
    ((setWeight edges edge weight).map Prod.fst).Nodup ∧
    ∀ other w, (other, w) ∈ setWeight edges edge weight ↔
      other = edge ∧ w = weight ∨ other ≠ edge ∧ (other, w) ∈ edges := by
  induction edges with
  | nil => exact ⟨List.nodup_singleton edge, fun other w => by simp [setWeight]⟩
  | cons first rest ih =>
      obtain ⟨e, v⟩ := first
      rw [List.map_cons, List.nodup_cons] at h
      obtain ⟨hfresh, hrest⟩ := h
      obtain ⟨hnodup, hmem⟩ := ih hrest
      rw [setWeight]
      cases he : e == edge with
      | true =>
          obtain rfl : e = edge := eq_of_beq he
          have hone : ∀ w, (e, w) ∉ rest := fun w hin =>
            hfresh (List.mem_map.mpr ⟨_, hin, rfl⟩)
          refine ⟨List.nodup_cons.mpr ⟨hfresh, hrest⟩, fun other w => ?_⟩
          rw [if_pos rfl, List.mem_cons, List.mem_cons, Prod.mk.injEq, Prod.mk.injEq]
          by_cases hother : other = e
          · subst hother
            simp [hone]
          · simp [hother]
      | false =>
          have hne : e ≠ edge := ne_of_beq_false he
          rw [if_neg Bool.false_ne_true]
          refine ⟨?_, fun other w => ?_⟩
          · rw [List.map_cons, List.nodup_cons, mem_keys_setWeight]
            exact ⟨fun hin => hin.elim hne hfresh, hnodup⟩
          · rw [List.mem_cons, hmem, List.mem_cons, Prod.mk.injEq]
            by_cases hother : other = edge
            · subst hother
              simp [Ne.symm hne]
            · simp [hother]

/-- **ADDING EDGES** whose ends are there, by induction on them: no node comes in, and every edge
that is added has the weight that it is added with, however often it is added. -/
theorem addEdges_of_known (weight : Nat) (added : List (Edge Name)) :
    ∀ picture : Picture Name, (picture.edges.map Prod.fst).Nodup →
      (∀ edge ∈ added, edge.1 ∈ picture.nodes ∧ edge.2 ∈ picture.nodes) →
      (added.foldl (addEdge weight) picture).nodes = picture.nodes ∧
      ((added.foldl (addEdge weight) picture).edges.map Prod.fst).Nodup ∧
      ∀ edge w, (edge, w) ∈ (added.foldl (addEdge weight) picture).edges ↔
        edge ∈ added ∧ w = weight ∨ edge ∉ added ∧ (edge, w) ∈ picture.edges := by
  induction added with
  | nil =>
      intro picture hnodup _
      exact ⟨rfl, hnodup, fun edge w => by simp⟩
  | cons first rest ih =>
      intro picture hnodup hends
      obtain ⟨hsource, htarget⟩ := hends first List.mem_cons_self
      have hnodes : (addEdge weight picture first).nodes = picture.nodes := by
        rw [addEdge, addNode_of_mem hsource, addNode_of_mem htarget]
      obtain ⟨hkeys, hfirst⟩ := mem_setWeight picture.edges first weight hnodup
      obtain ⟨hnodes', hkeys', hrest⟩ := ih (addEdge weight picture first) hkeys
        fun edge hedge => hnodes ▸ hends edge (List.mem_cons_of_mem _ hedge)
      refine ⟨hnodes'.trans hnodes, hkeys', fun edge w => ?_⟩
      have hstep : (edge, w) ∈ (addEdge weight picture first).edges ↔
          edge = first ∧ w = weight ∨ edge ≠ first ∧ (edge, w) ∈ picture.edges := hfirst edge w
      rw [List.foldl_cons, hrest, hstep, List.mem_cons]
      by_cases hin : edge ∈ rest
      · simp [hin]
      · simp [hin]

end Picture

namespace Graph

open Value

variable {Name : Type}

/-- The picture shows a part of the graph: its nodes are those of the graph that are within the
part, its edges those that start there, each once and with the weight of its kind, and they join
nodes of the picture. -/
structure Draws (graph : Graph Name) (within : Name → Prop) (picture : Picture Name) : Prop where
  nodesOnce : picture.nodes.Nodup
  nodes : ∀ name, name ∈ picture.nodes ↔ graph.Known name ∧ within name
  edgesOnce : (picture.edges.map Prod.fst).Nodup
  edges : ∀ edge weight, (edge, weight) ∈ picture.edges ↔
    within edge.1 ∧ ∃ kind, edge ∈ graph.edgesOf kind ∧ weight = kind.weight
  ends : ∀ entry ∈ picture.edges, entry.1.1 ∈ picture.nodes ∧ entry.1.2 ∈ picture.nodes

/-- A picture with only some of the nodes shows the part within them, if no edge leaves it. -/
theorem Draws.restrict [BEq Name] {graph : Graph Name} {picture : Picture Name}
    (h : graph.Draws (fun _ => True) picture) {names : List Name} {within : Name → Prop}
    (hnames : ∀ name, graph.Known name → (names.contains name = true ↔ within name))
    (hclosed : ∀ source target, graph.Leads source target → within source → within target) :
    graph.Draws within (picture.restrict names) := by
  have hends : ∀ entry ∈ picture.edges, graph.Known entry.1.1 ∧ graph.Known entry.1.2 ∧
      (within entry.1.1 → within entry.1.2) := by
    intro entry hentry
    obtain ⟨hsource, htarget⟩ := h.ends entry hentry
    obtain ⟨_, kind, hmem, _⟩ := (h.edges entry.1 entry.2).mp hentry
    exact ⟨((h.nodes _).mp hsource).1, ((h.nodes _).mp htarget).1,
      hclosed entry.1.1 entry.1.2 ((mem_edges_iff graph entry.1).mpr ⟨kind, hmem⟩)⟩
  have hnode : ∀ name, name ∈ (picture.restrict names).nodes ↔ graph.Known name ∧ within name := by
    intro name
    rw [Picture.restrict, List.mem_filter, h.nodes, and_true]
    exact and_congr_right (hnames name)
  have hkept : ∀ entry, entry ∈ (picture.restrict names).edges ↔
      entry ∈ picture.edges ∧ within entry.1.1 := by
    intro entry
    rw [Picture.restrict, List.mem_filter, Bool.and_eq_true]
    refine and_congr_right fun hentry => ?_
    obtain ⟨hsource, htarget, hstays⟩ := hends entry hentry
    rw [hnames _ hsource, hnames _ htarget]
    exact and_iff_left_of_imp hstays
  refine ⟨h.nodesOnce.filter _, hnode, h.edgesOnce.sublist ?_, ?_, ?_⟩
  · exact List.filter_sublist.map Prod.fst
  · intro edge weight
    rw [hkept, h.edges, true_and]
    exact and_comm
  · intro entry hentry
    obtain ⟨hin, hwithin⟩ := (hkept entry).mp hentry
    obtain ⟨hsource, htarget, hstays⟩ := hends entry hin
    exact ⟨(hnode _).mpr ⟨hsource, hwithin⟩, (hnode _).mpr ⟨htarget, hstays hwithin⟩⟩

/-- The picture of a graph whose edges join its nodes: no other node comes in, an edge of
inheritance weighs eight, and every other edge four. -/
theorem picture_of_known {graph : Graph String}
    (hends : ∀ kind, ∀ edge ∈ graph.edgesOf kind, graph.Known edge.1 ∧ graph.Known edge.2) :
    graph.picture.nodes = graph.nodes.map Prod.fst ∧
    (graph.picture.edges.map Prod.fst).Nodup ∧
    ∀ edge weight, (edge, weight) ∈ graph.picture.edges ↔
      edge ∈ graph.exploreToExplore ++ graph.viewToView ∧ weight = 8 ∨
      edge ∉ graph.exploreToExplore ++ graph.viewToView ∧
        edge ∈ graph.exploreToModel ++ graph.viewToExplore ∧ weight = 4 := by
  obtain ⟨hnodes, hkeys, hused⟩ := Picture.addEdges_of_known 4
    (graph.exploreToModel ++ graph.viewToExplore) ⟨graph.nodes.map Prod.fst, []⟩ List.nodup_nil
    fun edge hedge => (List.mem_append.mp hedge).elim (hends .exploreToModel edge)
      (hends .viewToExplore edge)
  obtain ⟨hnodes', hkeys', hall⟩ := Picture.addEdges_of_known 8
    (graph.exploreToExplore ++ graph.viewToView) _ hkeys fun edge hedge => by
      rw [hnodes]
      exact (List.mem_append.mp hedge).elim (hends .exploreToExplore edge) (hends .viewToView edge)
  refine ⟨hnodes'.trans hnodes, hkeys', fun edge weight => (hall edge weight).trans ?_⟩
  rw [hused]
  simp only [List.not_mem_nil, and_false, or_false]

/-- In a kinded graph an edge of a kind drawn with one weight is of no kind drawn with the other. -/
theorem Kinded.weight_iff {graph : Graph String} (h : graph.Kinded) (edge : Edge String)
    (weight : Nat) :
    (edge ∈ graph.exploreToExplore ++ graph.viewToView ∧ weight = 8 ∨
      edge ∉ graph.exploreToExplore ++ graph.viewToView ∧
        edge ∈ graph.exploreToModel ++ graph.viewToExplore ∧ weight = 4) ↔
      ∃ kind, edge ∈ graph.edgesOf kind ∧ weight = kind.weight := by
  constructor
  · rintro (⟨hmem, rfl⟩ | ⟨_, hmem, rfl⟩)
    · rcases List.mem_append.mp hmem with hin | hin
      · exact ⟨.exploreToExplore, hin, rfl⟩
      · exact ⟨.viewToView, hin, rfl⟩
    · rcases List.mem_append.mp hmem with hin | hin
      · exact ⟨.exploreToModel, hin, rfl⟩
      · exact ⟨.viewToExplore, hin, rfl⟩
  · rintro ⟨kind, hmem, rfl⟩
    have hlight : kind.weight = 4 → edge ∉ graph.exploreToExplore ++ graph.viewToView := by
      intro hweight hin
      rcases List.mem_append.mp hin with hin | hin
      · rw [show kind = .exploreToExplore from h.edge_kind hmem hin] at hweight
        exact absurd hweight (by decide)
      · rw [show kind = .viewToView from h.edge_kind hmem hin] at hweight
        exact absurd hweight (by decide)
    cases kind with
    | exploreToModel => exact Or.inr ⟨hlight rfl, List.mem_append_left _ hmem, rfl⟩
    | viewToExplore => exact Or.inr ⟨hlight rfl, List.mem_append_right _ hmem, rfl⟩
    | exploreToExplore => exact Or.inl ⟨List.mem_append_left _ hmem, rfl⟩
    | viewToView => exact Or.inl ⟨List.mem_append_right _ hmem, rfl⟩

/-- **THE WHOLE PICTURE** of a kinded graph shows all of it. -/
theorem Kinded.draws_picture {graph : Graph String} (h : graph.Kinded) :
    graph.Draws (fun _ => True) graph.picture := by
  have hends : ∀ kind, ∀ edge ∈ graph.edgesOf kind, graph.Known edge.1 ∧ graph.Known edge.2 :=
    fun kind edge hmem => ⟨(h.source kind edge hmem).1, (h.target kind edge hmem).1⟩
  obtain ⟨hnodes, hkeys, hedges⟩ := picture_of_known hends
  refine ⟨hnodes ▸ h.distinct, fun name => ?_, hkeys, fun edge weight => ?_, ?_⟩
  · rw [hnodes, and_true]
    rfl
  · rw [hedges, h.weight_iff, true_and]
  · rintro ⟨edge, weight⟩ hentry
    obtain ⟨kind, hmem, _⟩ := (h.weight_iff edge weight).mp ((hedges edge weight).mp hentry)
    rw [hnodes]
    exact hends kind edge hmem

/-! ## Values as names -/

theorem setWeight_asValues (edges : List (Edge String × Nat)) (edge : Edge String)
    (weight : Nat) :
    Picture.setWeight (edges.map fun e => (edgeAsValues e.1, e.2)) (edgeAsValues edge) weight =
      (Picture.setWeight edges edge weight).map fun e => (edgeAsValues e.1, e.2) := by
  induction edges with
  | nil => rfl
  | cons first rest ih =>
      rw [List.map_cons, Picture.setWeight, Picture.setWeight, ih]
      show (if (first.1 == edge) = true then _ else _) = _
      split <;> rfl

/-- A picture with its names as values. -/
def pictureAsValues (picture : Picture String) : Picture Value :=
  ⟨picture.nodes.map .text, picture.edges.map fun e => (edgeAsValues e.1, e.2)⟩

theorem addEdges_asValues (weight : Nat) (added : List (Edge String)) :
    ∀ picture : Picture String,
      (added.map edgeAsValues).foldl (Picture.addEdge weight) (pictureAsValues picture) =
        pictureAsValues (added.foldl (Picture.addEdge weight) picture) := by
  have hnode : ∀ (nodes : List String) (name : String),
      Picture.addNode (nodes.map Value.text) (.text name) =
        (Picture.addNode nodes name).map .text := by
    intro nodes name
    have hcontains : (nodes.map Value.text).contains (.text name) = nodes.contains name := by
      rw [Bool.eq_iff_iff, contains_text_iff, List.contains_iff_mem]
      simp
    rw [Picture.addNode, Picture.addNode, hcontains]
    split
    · rfl
    · rw [List.map_append, List.map_singleton]
  induction added with
  | nil => intro picture; rfl
  | cons edge rest ih =>
      intro picture
      rw [List.map_cons, List.foldl_cons, List.foldl_cons, ← ih]
      congr 1
      rw [Picture.addEdge, Picture.addEdge, pictureAsValues, pictureAsValues, ← hnode, ← hnode,
        ← setWeight_asValues]
      rfl

theorem picture_asValues (graph : Graph String) :
    graph.asValues.picture = pictureAsValues graph.picture := by
  have hnodes : graph.asValues.nodes.map (·.1) = (graph.nodes.map (·.1)).map .text :=
    names_asValues graph
  simp only [picture, hnodes]
  show ((graph.exploreToExplore.map edgeAsValues ++ graph.viewToView.map edgeAsValues).foldl _
    ((graph.exploreToModel.map edgeAsValues ++ graph.viewToExplore.map edgeAsValues).foldl _
      (pictureAsValues ⟨graph.nodes.map (·.1), []⟩))) = _
  rw [← List.map_append, ← List.map_append, addEdges_asValues, addEdges_asValues]

theorem edgeAsValues_injective : Function.Injective edgeAsValues := by
  rintro ⟨source, target⟩ ⟨source', target'⟩ h
  cases h
  rfl

theorem text_injective : Function.Injective Value.text := fun _ _ => Value.text.inj

theorem known_asValues (graph : Graph String) (name : Value) :
    graph.asValues.Known name ↔ ∃ s, graph.Known s ∧ name = .text s := by
  rw [Known, names_asValues, List.mem_map]
  exact exists_congr fun s => and_congr_right fun _ => eq_comm

/-- What a picture shows, it shows with values as names. -/
theorem Draws.asValues {graph : Graph String} {picture : Picture String}
    (h : graph.Draws (fun _ => True) picture) :
    graph.asValues.Draws (fun _ => True) (pictureAsValues picture) where
  nodesOnce := h.nodesOnce.map text_injective
  nodes := by
    intro name
    rw [pictureAsValues, List.mem_map, known_asValues, and_true]
    refine exists_congr fun s => ?_
    rw [h.nodes, and_true, eq_comm]
  edgesOnce := by
    rw [pictureAsValues, List.map_map]
    have := h.edgesOnce.map edgeAsValues_injective
    rwa [List.map_map] at this
  edges := by
    intro edge weight
    simp only [pictureAsValues, List.mem_map, edgesOf_asValues, true_and]
    constructor
    · rintro ⟨⟨e, w⟩, hentry, heq⟩
      obtain ⟨_, kind, hmem, hweight⟩ := (h.edges e w).mp hentry
      cases heq
      exact ⟨kind, ⟨e, hmem, rfl⟩, hweight⟩
    · rintro ⟨kind, ⟨e, hmem, rfl⟩, rfl⟩
      exact ⟨(e, kind.weight), (h.edges e _).mpr ⟨trivial, kind, hmem, rfl⟩, rfl⟩
  ends := by
    intro entry hentry
    obtain ⟨e, hmem, rfl⟩ := List.mem_map.mp hentry
    exact (h.ends e hmem).imp List.mem_map_of_mem List.mem_map_of_mem

/-! ## What is reached -/

theorem leads_asValues (graph : Graph String) (source target : Value) :
    graph.asValues.Leads source target ↔
      ∃ first last, graph.Leads first last ∧ source = .text first ∧ target = .text last := by
  rw [Leads, edges_asValues, List.mem_map]
  constructor
  · rintro ⟨⟨first, last⟩, hmem, heq⟩
    cases heq
    exact ⟨first, last, hmem, rfl, rfl⟩
  · rintro ⟨first, last, hmem, rfl, rfl⟩
    exact ⟨(first, last), hmem, rfl⟩

/-- A text is reached from values if it is reached from a text among them. -/
theorem reachedFrom_text_iff (graph : Graph String) (roots : List Value) (name : String) :
    graph.asValues.ReachedFrom roots (.text name) ↔ graph.ReachedFrom (textsIn roots) name := by
  constructor
  · rintro ⟨root, hroot, hpath⟩
    generalize hlast : Value.text name = last at hpath
    induction hpath generalizing name with
    | refl =>
        subst hlast
        exact ⟨name, (mem_textsIn_iff roots name).mpr hroot, Relation.ReflTransGen.refl⟩
    | tail _ hedge ih =>
        obtain ⟨first, last, hlead, hfirst, rfl⟩ := (leads_asValues graph _ _).mp hedge
        cases hlast
        obtain ⟨start, hstart, hpath⟩ := ih first hfirst.symm
        exact ⟨start, hstart, hpath.tail hlead⟩
  · rintro ⟨root, hroot, hpath⟩
    refine ⟨.text root, (mem_textsIn_iff roots root).mp hroot, ?_⟩
    exact Relation.ReflTransGen.lift Value.text
      (fun first last hlead => (leads_asValues graph _ _).mpr ⟨first, last, hlead, rfl, rfl⟩)
      _ _ hpath

/-- The walk from values lists what is reached from them and nothing else. -/
theorem mem_connected_asValues (graph : Graph String) (roots : List Value) (name : Value) :
    name ∈ graph.asValues.connected roots ↔ graph.asValues.ReachedFrom roots name := by
  obtain ⟨more, htexts, hvalues⟩ := connected_asValues graph roots
  have htext : ∀ s, s ∈ textsIn roots ++ more ↔ graph.asValues.ReachedFrom roots (.text s) := by
    intro s
    rw [← htexts, mem_connected, reachedFrom_text_iff]
  rw [hvalues, List.mem_append, List.mem_map]
  constructor
  · rintro (hroot | ⟨s, hmore, rfl⟩)
    · exact ⟨name, hroot, Relation.ReflTransGen.refl⟩
    · exact (htext s).mp (List.mem_append_right _ hmore)
  · rintro ⟨root, hroot, hpath⟩
    cases hpath with
    | refl => exact Or.inl hroot
    | tail hpath hedge =>
        -- behind an edge there is a text
        obtain ⟨_, last, _, _, rfl⟩ := (leads_asValues graph _ _).mp hedge
        rcases List.mem_append.mp ((htext last).mpr ⟨root, hroot, hpath.tail hedge⟩) with h | h
        · exact Or.inl ((mem_textsIn_iff roots last).mp h)
        · exact Or.inr ⟨last, h, rfl⟩

/-! ## Pictures for roots -/

theorem isEverything_list_iff (roots : List Value) :
    isEverything (.list roots) = true ↔ roots = [.text "*"] := by
  show Value.sameItems roots [.text "*"] = true ↔ _
  match roots with
  | [] => exact iff_of_false Bool.false_ne_true nofun
  | [v] =>
      show (Value.same v (.text "*") && true) = true ↔ _
      rw [Bool.and_true, List.singleton_inj]
      exact beq_text_iff v "*"
  | v :: w :: rest =>
      show (Value.same v (.text "*") && false) = true ↔ _
      rw [Bool.and_false]
      exact iff_of_false Bool.false_ne_true nofun

/-- All names of such a graph can stand in a picture. -/
theorem pictureFault?_asValues (graph : Graph String) : graph.asValues.pictureFault? = none := by
  rw [pictureFault?, List.findSome?_eq_none_iff]
  intro name hname
  have htext : ∃ s, name = Value.text s := by
    rcases List.mem_append.mp hname with hnode | hend
    · obtain ⟨s, _, rfl⟩ := (known_asValues graph name).mp hnode
      exact ⟨s, rfl⟩
    · rw [edges_asValues, List.mem_flatMap] at hend
      obtain ⟨edge, hedge, hname⟩ := hend
      obtain ⟨e, _, rfl⟩ := List.mem_map.mp hedge
      rcases List.mem_pair.mp hname with rfl | rfl
      · exact ⟨e.1, rfl⟩
      · exact ⟨e.2, rfl⟩
  obtain ⟨s, rfl⟩ := htext
  rfl

/-- Every node among some names has a colour, the one of its kind. -/
structure Coloured (graph : Graph Value) (names : List Value) (shades : List (Value × String)) :
    Prop where
  names : shades.map Prod.fst = names
  shade : ∀ shade ∈ shades, ∃ kind, graph.kind? shade.1 = some kind ∧ shade.2 = Drawing.colour kind

/-- **COLOURING** known nodes has no fault and gives each of them one colour, by induction on
them. -/
theorem colours_of_known (graph : Graph Value) (names : List Value)
    (h : ∀ name ∈ names, ∃ kind, graph.kind? name = some kind) :
    ∃ shades, Drawing.colours graph names = .ok shades ∧ graph.Coloured names shades := by
  induction names with
  | nil => exact ⟨[], rfl, rfl, nofun⟩
  | cons name rest ih =>
      obtain ⟨kind, hkind⟩ := h name List.mem_cons_self
      obtain ⟨shades, hshades, hnames, hcolour⟩ :=
        ih fun other hmem => h other (List.mem_cons_of_mem _ hmem)
      refine ⟨(name, Drawing.colour kind) :: shades, ?_, ?_, ?_⟩
      · rw [Drawing.colours, hkind, hshades]
        rfl
      · rw [List.map_cons, hnames]
      · intro shade hmem
        rcases List.mem_cons.mp hmem with rfl | hrest
        · exact ⟨kind, hkind, rfl⟩
        · exact hcolour shade hrest

theorem Draws.colours {graph : Graph String} (h : graph.Kinded) {within : Value → Prop}
    {picture : Picture Value} (hdraws : graph.asValues.Draws within picture) :
    ∃ shades, Drawing.colours graph.asValues picture.nodes = .ok shades ∧
      graph.asValues.Coloured picture.nodes shades := by
  refine colours_of_known _ _ fun name hname => ?_
  obtain ⟨s, hknown, rfl⟩ := (known_asValues graph name).mp ((hdraws.nodes name).mp hname).1
  obtain ⟨kind, hkind, _⟩ := h.kind?_of_known hknown
  exact ⟨kind, (kind?_asValues graph s).trans hkind⟩

/-- The picture for roots that are no asterisk. -/
theorem create_of_roots (graph : Graph String) {roots : List Value} (h : roots ≠ [.text "*"]) :
    graph.asValues.create (.ok (.list roots)) =
      ⟨graph.asValues.connected roots,
        if roots.all Value.isKey then
          .ok (graph.asValues.picture.restrict (graph.asValues.connected roots))
        else .error .notNode⟩ := by
  have hroots : isEverything (.list roots) = false := by
    rw [← Bool.not_eq_true, isEverything_list_iff]
    exact h
  have hall : (graph.asValues.connected roots).all Value.isKey = roots.all Value.isKey := by
    obtain ⟨more, _, hvalues⟩ := connected_asValues graph roots
    have htexts : (more.map Value.text).all Value.isKey = true := by
      rw [List.all_map]
      exact List.all_eq_true.mpr fun _ _ => rfl
    rw [hvalues, List.all_append, htexts, Bool.and_true]
  rw [create, pictureFault?_asValues]
  simp only [hroots, Bool.false_eq_true, if_false]
  show (Creation.mk _ (if (graph.asValues.connected roots).all Value.isKey then _ else _)) = _
  rw [hall]

theorem create_everything (graph : Graph String) :
    graph.asValues.create (.ok (.list [.text "*"])) = ⟨[], .ok graph.asValues.picture⟩ := by
  rw [create, pictureFault?_asValues]
  simp only [(isEverything_list_iff [.text "*"]).mpr rfl, if_true]

/-- **PICTURES** of a graph that any calls have led to, for any list of roots.  The roots may be
the asterisk alone: then the picture shows the whole graph, its nodes and every edge of the four
kinds, once, with the weight of its kind.  For any other roots, if none of them is a list or a
record, it shows the nodes that can be reached from them and every edge that starts at such a node;
what is listed for it are the roots and what can be reached.  A list or a record among the roots can
be no node, and prevents the picture.  In every picture all nodes are known, so that colouring has
no fault and gives each of them the colour of its kind. -/
theorem reached_graph_pictures {graph : Graph Value} (h : graph.ReachedAsValues)
    (roots : List Value) :
    (roots = [.text "*"] → ∃ picture shades,
      graph.create (.ok (.list roots)) = ⟨[], .ok picture⟩ ∧
      graph.Draws (fun _ => True) picture ∧
      Drawing.colours graph picture.nodes = .ok shades ∧ graph.Coloured picture.nodes shades) ∧
    (roots ≠ [.text "*"] →
      (∀ name, name ∈ (graph.create (.ok (.list roots))).listed ↔ graph.ReachedFrom roots name) ∧
      ((∀ root ∈ roots, root.isKey = true) → ∃ picture shades,
        (graph.create (.ok (.list roots))).picture = .ok picture ∧
        graph.Draws (graph.ReachedFrom roots) picture ∧
        Drawing.colours graph picture.nodes = .ok shades ∧ graph.Coloured picture.nodes shades) ∧
      ((∃ root ∈ roots, root.isKey = false) →
        (graph.create (.ok (.list roots))).picture = .error .notNode)) := by
  obtain ⟨texts, hreached, rfl⟩ := h.exists_texts
  have hkinded := hreached.kinded
  have hwhole : texts.asValues.Draws (fun _ => True) texts.asValues.picture := by
    rw [picture_asValues]
    exact hkinded.draws_picture.asValues
  constructor
  · rintro rfl
    obtain ⟨shades, hshades, hcoloured⟩ := hwhole.colours hkinded
    exact ⟨_, shades, create_everything texts, hwhole, hshades, hcoloured⟩
  · intro hroots
    rw [create_of_roots texts hroots]
    refine ⟨mem_connected_asValues texts roots, fun hkeys => ?_, ?_⟩
    · have hpart : texts.asValues.Draws (texts.asValues.ReachedFrom roots)
          (texts.asValues.picture.restrict (texts.asValues.connected roots)) := by
        refine hwhole.restrict ?_ ?_
        · intro name hname
          obtain ⟨s, _, rfl⟩ := (known_asValues texts name).mp hname
          rw [contains_text_iff, mem_connected_asValues]
        · rintro source target hlead ⟨root, hroot, hpath⟩
          exact ⟨root, hroot, hpath.tail hlead⟩
      obtain ⟨shades, hshades, hcoloured⟩ := hpart.colours hkinded
      exact ⟨_, shades, if_pos (List.all_eq_true.mpr hkeys), hpart, hshades, hcoloured⟩
    · rintro ⟨root, hroot, hkey⟩
      refine if_neg fun hall => ?_
      rw [List.all_eq_true.mp hall root hroot] at hkey
      exact Bool.noConfusion hkey

/-- A model with an explore that joins its own view twice. -/
def joinedTwice : Lookml.Document :=
  ⟨"shop.model.lkml", "shop.model.lkml", "shop", .model,
    [("explores", .list [.record [("name", .text "sales"),
      ("joins", .list [.record [("name", .text "sales")], .record [("name", .text "sales")]])]])]⟩

/-- A document of which a part is added, a marking, and then the model. -/
def shopAfterMarking : Graph Value :=
  ((Graph.empty.process halfRead).graph.tagOrphans.graph.process joinedTwice).graph

/-- The edge that is there three times is drawn once, and roots that are no nodes are left out. -/
theorem shopAfterMarking_pictures :
    shopAfterMarking.ReachedAsValues ∧
    (shopAfterMarking.create (.ok (.list [.text "sales.view", .int 3, .text "none"]))).picture =
      .ok ⟨[.text "shop.model", .text "sales.explore", .text "sales.view"],
        [((.text "sales.explore", .text "shop.model"), 4),
          ((.text "sales.view", .text "sales.explore"), 4)]⟩ ∧
    ∃ picture shades,
      (shopAfterMarking.create (.ok (.list [.text "sales.view", .int 3, .text "none"]))).picture =
        .ok picture ∧
      shopAfterMarking.Draws
        (shopAfterMarking.ReachedFrom [.text "sales.view", .int 3, .text "none"]) picture ∧
      Drawing.colours shopAfterMarking picture.nodes = .ok shades ∧
      shopAfterMarking.Coloured picture.nodes shades := by
  have hempty : Graph.ReachedAsValues Graph.empty := Relation.ReflTransGen.refl
  have hreached : shopAfterMarking.ReachedAsValues :=
    (hempty.process halfRead).tagOrphans.process joinedTwice
  obtain ⟨_, hparts⟩ :=
    reached_graph_pictures hreached [.text "sales.view", .int 3, .text "none"]
  exact ⟨hreached, rfl, (hparts (by simp)).2.1 (by simp [Value.isKey])⟩

end Graph

end LookmlProject
