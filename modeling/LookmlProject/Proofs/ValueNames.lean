import LookmlProject.Graph.Roots
import LookmlProject.Proofs.Histories
import Mathlib.Data.List.Perm.Basic

/-! # Graphs whose names are values

    Settings give roots as values, so the graph that is drawn has values as names.
    Its own names are texts all the same: documents add texts only.  So such a graph
    is one with texts as names, each of them taken as a value (`asValues`), and what
    is known of graphs with texts as names holds of it:

    * what a document adds is the same for both kinds of names
      (`declareDocument_asValues`), and so is adding it (`addAll_asValues`);
    * a walk may start at any values, but only texts among them matter, and from
      there it takes the same edges (`connected_asValues`);
    * so marking is the same, too, and every graph that calls lead to is one with
      texts as names (`ReachedAsValues.exists_texts`). -/

namespace LookmlProject

/-! ## Texts among values -/

namespace Value

/-- A value that is equal to a text is that text. -/
theorem text_beq_iff (s : String) (v : Value) : (Value.text s == v) = true ↔ v = .text s := by
  cases v with
  | text t =>
      show (s == t) = true ↔ _
      rw [beq_iff_eq, Value.text.injEq, eq_comm]
  | _ => exact iff_of_false Bool.false_ne_true nofun

/-- The same with the text on the other side: equality of values is not symmetric by definition. -/
theorem beq_text_iff (v : Value) (s : String) : (v == Value.text s) = true ↔ v = .text s := by
  cases v with
  | text t =>
      show (t == s) = true ↔ _
      rw [beq_iff_eq, Value.text.injEq]
  | _ => exact iff_of_false Bool.false_ne_true nofun

/-- A text is found among values exactly if it is one of them. -/
theorem contains_text_iff (names : List Value) (s : String) :
    names.contains (.text s) = true ↔ .text s ∈ names := by
  induction names with
  | nil => simp
  | cons v rest ih =>
      rw [List.contains_cons, Bool.or_eq_true, ih, text_beq_iff, List.mem_cons, eq_comm]

/-- The text that a value is. -/
def text? : Value → Option String
  | .text s => some s
  | _ => none

theorem text?_eq_some_iff (v : Value) (s : String) : v.text? = some s ↔ v = .text s := by
  cases v with
  | text t => rw [text?, Option.some.injEq, Value.text.injEq]
  | _ => exact iff_of_false nofun nofun

/-- The texts among some values. -/
def textsIn (names : List Value) : List String := names.filterMap text?

/-- The texts among some values are those of them that are texts. -/
theorem mem_textsIn_iff (names : List Value) (s : String) :
    s ∈ textsIn names ↔ .text s ∈ names := by
  rw [textsIn, List.mem_filterMap]
  constructor
  · rintro ⟨v, hmem, hv⟩
    rwa [(text?_eq_some_iff v s).mp hv] at hmem
  · exact fun hmem => ⟨_, hmem, rfl⟩

end Value

open Value

/-! ## What documents add -/

namespace Trail

variable {α β γ : Type}

/-- Work with other results in place of its own. -/
def map (change : α → β) (trail : Trail α) : Trail β := ⟨trail.steps.map change, trail.fault⟩

variable {change : α → β}

/-- Changing the results of trails in a row is changing those of each. -/
theorem append_eq_map {first second : Trail α} {first' second' : Trail β}
    (h : first' = first.map change) (h' : second' = second.map change) :
    first' ++ second' = (first ++ second).map change := by
  subst h h'
  obtain ⟨xs, fault⟩ := first
  cases fault with
  | some cause => rfl
  | none => exact congrArg (Trail.mk · second.fault) List.map_append.symm

/-- Changing the results of what follows a needed result changes nothing about the fault. -/
theorem need_eq_map {result : Except Fault γ} {next : γ → Trail α} {next' : γ → Trail β}
    (h : ∀ c, next' c = (next c).map change) :
    need result next' = (need result next).map change := by
  cases result with
  | error fault => rfl
  | ok c => exact h c

/-- Changing the results of the work on every element changes those of the whole. -/
theorem flatMap_eq_map {work : γ → Trail α} {work' : γ → Trail β}
    (h : ∀ c, work' c = (work c).map change) (items : List γ) :
    flatMap work' items = (flatMap work items).map change := by
  induction items with
  | nil => rfl
  | cons item rest ih => exact append_eq_map (h item) ih

end Trail

/-- An addition with its names as values. -/
def Addition.asValues : Addition String → Addition Value
  | .node name kind => .node (.text name) kind
  | .edge kind source target => .edge kind (.text source) (.text target)

namespace Graph

open Lookml Trail

/-- The additions for a list of names, with values as names. -/
theorem eachName_asValues {adds : String → List (Addition String)}
    {adds' : String → List (Addition Value)}
    (h : ∀ name, adds' name = (adds name).map Addition.asValues) (names : Value) :
    eachName names adds' = (eachName names adds).map Addition.asValues :=
  need_eq_map fun items => flatMap_eq_map
    (fun _ => need_eq_map fun name => congrArg Trail.of (h name)) items

/-- The additions for what stands under a key, with values as names. -/
theorem underKey_asValues {declaration : Value} {key : String}
    {adds : Value → Trail (Addition String)} {adds' : Value → Trail (Addition Value)}
    {otherwise : Trail (Addition String)} {otherwise' : Trail (Addition Value)}
    (h : ∀ v, adds' v = (adds v).map Addition.asValues)
    (hother : otherwise' = otherwise.map Addition.asValues) :
    underKey declaration key adds' otherwise' =
      (underKey declaration key adds otherwise).map Addition.asValues := by
  refine need_eq_map fun present => ?_
  cases present with
  | true => exact need_eq_map h
  | false => exact hother

/-- What a view adds, with values as names. -/
theorem declareView_asValues (view : Value) :
    (declareView view : Trail (Addition Value)) = (declareView view).map Addition.asValues := by
  refine need_eq_map fun name => append_eq_map (append_eq_map rfl ?_) ?_
  · refine need_eq_map fun sql => ?_
    split
    · refine need_eq_map fun text => congrArg Trail.of ?_
      show _ = ((references text).flatMap (viewBefore (viewNode name))).map Addition.asValues
      rw [List.map_flatMap]
      rfl
    · rfl
  · exact underKey_asValues (eachName_asValues fun _ => rfl) rfl

theorem declareJoin_asValues (target : String) (join : Value) :
    declareJoin (Value.text target) join = (declareJoin target join).map Addition.asValues :=
  need_eq_map fun _ => need_eq_map fun _ => rfl

/-- What the base view of an explore adds, with values as names. -/
theorem declareBase_asValues (target : String) (explore : Value) :
    declareBase (Value.text target) explore =
      (declareBase target explore).map Addition.asValues := by
  have hnamed : ∀ v : Value,
      (Trail.need v.asText fun name => Trail.of (viewIn (Value.text target) name)) =
        (Trail.need v.asText fun name => Trail.of (viewIn target name)).map Addition.asValues :=
    fun _ => need_eq_map fun _ => rfl
  refine underKey_asValues hnamed (underKey_asValues hnamed (need_eq_map fun extending => ?_))
  cases extending with
  | true => rfl
  | false => exact need_eq_map hnamed

/-- What an explore adds, with values as names. -/
theorem declareExplore_asValues (model : Option String) (explore : Value) :
    declareExplore (model.map Value.text) explore =
      (declareExplore model explore).map Addition.asValues := by
  refine need_eq_map fun name => ?_
  refine append_eq_map (append_eq_map (append_eq_map (append_eq_map rfl ?_) ?_) ?_) ?_
  · cases model with
    | none => rfl
    | some m => rfl
  · exact underKey_asValues (eachName_asValues fun _ => rfl) rfl
  · exact declareBase_asValues (exploreNode name) explore
  · exact underKey_asValues (fun joins => need_eq_map fun items =>
      flatMap_eq_map (declareJoin_asValues (exploreNode name)) items) rfl

/-- **WHAT A DOCUMENT ADDS** does not depend on what names are. -/
theorem declareDocument_asValues (doc : Document) :
    (declareDocument doc : Trail (Addition Value)) =
      (declareDocument doc).map Addition.asValues := by
  rw [declareDocument, declareDocument]
  split
  · exact need_eq_map fun items => flatMap_eq_map declareView_asValues items
  split
  · refine append_eq_map rfl ?_
    split
    · exact need_eq_map fun items =>
        flatMap_eq_map (declareExplore_asValues (some (modelNode doc.baseName))) items
    · rfl
  split
  · exact need_eq_map fun items => flatMap_eq_map (declareExplore_asValues none) items
  · rfl

/-! ## The same graph -/

/-- An edge with its names as values. -/
def edgeAsValues (edge : Edge String) : Edge Value := (.text edge.1, .text edge.2)

/-- The graph with its names as values. -/
def asValues (graph : Graph String) : Graph Value where
  nodes := graph.nodes.map fun node => (.text node.1, node.2)
  exploreToModel := graph.exploreToModel.map edgeAsValues
  viewToExplore := graph.viewToExplore.map edgeAsValues
  exploreToExplore := graph.exploreToExplore.map edgeAsValues
  viewToView := graph.viewToView.map edgeAsValues

theorem edgesOf_asValues (graph : Graph String) (kind : EdgeKind) :
    graph.asValues.edgesOf kind = (graph.edgesOf kind).map edgeAsValues := by
  cases kind <;> rfl

theorem edges_asValues (graph : Graph String) :
    graph.asValues.edges = graph.edges.map edgeAsValues := by
  simp only [edges, List.map_append]
  rfl

theorem names_asValues (graph : Graph String) :
    graph.asValues.nodes.map Prod.fst = (graph.nodes.map Prod.fst).map .text := by
  rw [List.map_map]
  exact List.map_map

/-- A text has the kind that it has as a name. -/
theorem kind?_asValues (graph : Graph String) (name : String) :
    graph.asValues.kind? (.text name) = graph.kind? name := by
  show (graph.nodes.map fun node => (Value.text node.1, node.2)).lookup (.text name) =
    graph.nodes.lookup name
  induction graph.nodes with
  | nil => rfl
  | cons node rest ih =>
      rw [List.map_cons, List.lookup_cons, List.lookup_cons, ih]
      rfl

/-- Adding a node is the same for both kinds of names. -/
theorem addNode_asValues (graph : Graph String) (name : String) (kind : NodeKind) :
    graph.asValues.addNode (.text name) kind = (graph.addNode name kind).asValues := by
  have hset : ∀ nodes : List (String × NodeKind),
      setKind (nodes.map fun node => (Value.text node.1, node.2)) (.text name) kind =
        (setKind nodes name kind).map fun node => (Value.text node.1, node.2) := by
    intro nodes
    induction nodes with
    | nil => rfl
    | cons node rest ih =>
        rw [List.map_cons, setKind, setKind, ih]
        show (if (node.1 == name) = true then _ else _) = _
        split <;> rfl
  rw [addNode, addNode, asValues]
  exact congrArg (Graph.mk · _ _ _ _) (hset graph.nodes)

/-- One addition is the same for both kinds of names. -/
theorem add_asValues (graph : Graph String) (addition : Addition String) :
    graph.asValues.add addition.asValues = (graph.add addition).asValues := by
  cases addition with
  | node name kind => exact addNode_asValues graph name kind
  | edge kind source target =>
      cases kind <;> simp [add, addEdge, asValues, Addition.asValues, edgeAsValues]

/-- Additions in a row are the same for both kinds of names. -/
theorem addAll_asValues (additions : List (Addition String)) :
    ∀ graph : Graph String, graph.asValues.addAll (additions.map Addition.asValues) =
      (graph.addAll additions).asValues := by
  induction additions with
  | nil => intro graph; rfl
  | cons addition rest ih =>
      intro graph
      show (graph.asValues.add addition.asValues).addAll (rest.map Addition.asValues) = _
      rw [add_asValues, ih]
      rfl

/-! ## Walks -/

/-- The first edge that is equal is the same one for both kinds of names. -/
theorem erase_asValues (edges : List (Edge String)) (edge : Edge String) :
    (edges.map edgeAsValues).erase (edgeAsValues edge) = (edges.erase edge).map edgeAsValues := by
  induction edges with
  | nil => rfl
  | cons first rest ih =>
      rw [List.map_cons, List.erase_cons, List.erase_cons, ih]
      show (if (first == edge) = true then _ else _) = _
      split <;> rfl

/-- **ONE ROUND** from values on takes the edges that it takes from the texts among them. -/
theorem round_asValues (texts : List String) (passed : List (Edge String)) (changed : Bool)
    (ahead : List (Edge String)) :
    ∀ listed : List Value, (∀ s, .text s ∈ listed ↔ s ∈ texts) →
      ∃ more : List String,
        (round texts passed changed ahead).listed = texts ++ more ∧
        round listed (passed.map edgeAsValues) changed (ahead.map edgeAsValues) =
          ⟨listed ++ more.map .text, (round texts passed changed ahead).left.map edgeAsValues,
            (round texts passed changed ahead).changed⟩ := by
  -- The edges start at texts, so whether one is taken depends on the texts that are listed alone.
  have hcontains : ∀ (listed : List Value) (texts : List String),
      (∀ s, .text s ∈ listed ↔ s ∈ texts) →
      ∀ edge : Edge String, listed.contains (edgeAsValues edge).1 = texts.contains edge.1 := by
    intro listed texts h edge
    rw [Bool.eq_iff_iff]
    exact (contains_text_iff listed edge.1).trans ((h edge.1).trans List.contains_iff_mem.symm)
  have herase : ∀ (passed : List (Edge String)) (edge : Edge String),
      (passed.map edgeAsValues ++ [edgeAsValues edge]).erase (edgeAsValues edge) =
        ((passed ++ [edge]).erase edge).map edgeAsValues := by
    intro passed edge
    rw [← erase_asValues, List.map_append, List.map_singleton]
  -- The invariant is that the same texts are listed in both; a taken edge adds the same one to
  -- each.
  fun_induction round texts passed changed ahead with
  | case1 texts passed changed =>
      intro listed h
      exact ⟨[], by simp, by simp [round]⟩
  | case2 texts passed changed edge hsource =>
      intro listed h
      refine ⟨[edge.2], rfl, ?_⟩
      rw [List.map_singleton, round, hcontains listed texts h, if_pos hsource, herase]
      rfl
  | case3 texts passed changed edge hsource =>
      intro listed h
      refine ⟨[], by simp, ?_⟩
      rw [List.map_singleton, round, hcontains listed texts h, if_neg hsource]
      simp
  | case4 texts passed changed edge next rest hsource ih =>
      intro listed h
      obtain ⟨more, hmore, hround⟩ := ih (listed ++ [.text edge.2]) fun s => by
        simp only [List.mem_append, h, List.mem_singleton, Value.text.injEq]
      refine ⟨edge.2 :: more, by rw [hmore]; simp, ?_⟩
      rw [List.map_cons, List.map_cons, round, hcontains listed texts h, if_pos hsource, herase]
      rw [List.map_append] at hround
      exact hround.trans (by simp)
  | case5 texts passed changed edge next rest hsource ih =>
      intro listed h
      obtain ⟨more, hmore, hround⟩ := ih listed h
      refine ⟨more, hmore, ?_⟩
      rw [List.map_cons, List.map_cons, round, hcontains listed texts h, if_neg hsource]
      rwa [List.map_append] at hround

/-- Any number of rounds takes the same edges from values and from the texts among them. -/
theorem rounds_asValues : ∀ (fuel : Nat) (texts : List String) (edges : List (Edge String))
    (listed : List Value), (∀ s, .text s ∈ listed ↔ s ∈ texts) →
      ∃ more : List String, rounds fuel texts edges = texts ++ more ∧
        rounds fuel listed (edges.map edgeAsValues) = listed ++ more.map .text := by
  intro fuel
  induction fuel with
  | zero => intro texts edges listed _; exact ⟨[], by simp [rounds], by simp [rounds]⟩
  | succ fuel ih =>
      intro texts edges listed h
      obtain ⟨first, hfirst, hround⟩ := round_asValues texts [] false edges listed h
      rw [List.map_nil] at hround
      simp only [rounds, hround]
      cases (round texts [] false edges).changed with
      | false => exact ⟨first, hfirst, rfl⟩
      | true =>
          obtain ⟨more, hmore, hrounds⟩ := ih (round texts [] false edges).listed
            (round texts [] false edges).left (listed ++ first.map .text) fun s => by
              rw [hfirst]
              simp [h]
          refine ⟨first ++ more, ?_, ?_⟩
          · rw [if_pos rfl, hmore, hfirst, List.append_assoc]
          · rw [if_pos rfl, hrounds, List.map_append, List.append_assoc]

/-- **A WALK** from values on lists them, and then what a walk from the texts among them lists. -/
theorem connected_asValues (graph : Graph String) (roots : List Value) :
    ∃ more : List String, graph.connected (textsIn roots) = textsIn roots ++ more ∧
      graph.asValues.connected roots = roots ++ more.map .text := by
  obtain ⟨more, htexts, hvalues⟩ := rounds_asValues (graph.edges.length + 1) (textsIn roots)
    graph.edges roots fun s => (mem_textsIn_iff roots s).symm
  refine ⟨more, htexts, ?_⟩
  rw [connected, edges_asValues, List.length_map, hvalues]

/-- A walk from texts is the same for both kinds of names. -/
theorem connected_texts (graph : Graph String) (names : List String) :
    graph.asValues.connected (names.map .text) = (graph.connected names).map .text := by
  have hnames : textsIn (names.map .text) = names := by
    rw [textsIn, List.filterMap_map]
    exact List.filterMap_some
  obtain ⟨more, htexts, hvalues⟩ := connected_asValues graph (names.map .text)
  rw [hnames] at htexts
  rw [hvalues, htexts, List.map_append]

/-! ## Marking -/

/-- The views that may be orphans are the same for both kinds of names. -/
theorem candidates_asValues (graph : Graph String) :
    graph.asValues.candidates = graph.candidates.map .text := by
  have hused : ∀ name : String, (graph.asValues.viewToExplore.map (·.1)).contains (.text name) =
      (graph.viewToExplore.map (·.1)).contains name := by
    intro name
    rw [Bool.eq_iff_iff, contains_text_iff, List.contains_iff_mem]
    simp [asValues, edgeAsValues]
  simp only [candidates, List.map_map]
  show (List.filter _ (graph.nodes.map _)).map _ = _
  rw [List.filter_map, List.map_map]
  simp only [Function.comp_def, hused]

/-- Whether an explore is among some names is the same for both kinds of names. -/
theorem anyExplore_asValues (graph : Graph String) (names : List String) :
    graph.asValues.anyExplore (names.map .text) = graph.anyExplore names := by
  induction names with
  | nil => rfl
  | cons name rest ih =>
      rw [List.map_cons, anyExplore, anyExplore, kind?_asValues, ih]
      rfl

/-- Marking is the same for both kinds of names, the fault included. -/
theorem tagAmong_asValues (views : List String) : ∀ graph : Graph String,
    graph.asValues.tagAmong (views.map .text) =
      ⟨(graph.tagAmong views).graph.asValues, (graph.tagAmong views).fault⟩ := by
  induction views with
  | nil => intro graph; rfl
  | cons view rest ih =>
      intro graph
      have hwalk : graph.asValues.connected [.text view] = (graph.connected [view]).map .text :=
        connected_texts graph [view]
      rw [List.map_cons, tagAmong, tagAmong, hwalk, anyExplore_asValues]
      cases graph.anyExplore (graph.connected [view]) with
      | error fault => rfl
      | ok found =>
          cases found with
          | true => exact ih graph
          | false =>
              rw [addNode_asValues]
              exact ih (graph.addNode view .orphan)

/-! ## Any number of calls -/

/-- One call on a graph with values as names, as `Call` is one on a graph with texts as names. -/
inductive ValueCall : Graph Value → Graph Value → Prop where
  | process {graph : Graph Value} (doc : Document) {part additions : List (Addition Value)} :
      part <+: (declareDocument doc).steps → additions.Perm part →
      ValueCall graph (graph.addAll additions)
  | mark {graph : Graph Value} {order : List Value} :
      order.Perm graph.candidates → ValueCall graph (graph.tagAmong order).graph

/-- Calls lead from the empty graph to this one. -/
def ReachedAsValues (graph : Graph Value) : Prop :=
  Relation.ReflTransGen ValueCall Graph.empty graph

/-- Adding a document is a call. -/
theorem ReachedAsValues.process {graph : Graph Value} (h : graph.ReachedAsValues)
    (doc : Document) : (graph.process doc).graph.ReachedAsValues :=
  h.tail (.process doc (List.prefix_refl _) (List.Perm.refl _))

/-- Marking the orphans is a call. -/
theorem ReachedAsValues.tagOrphans {graph : Graph Value} (h : graph.ReachedAsValues) :
    graph.tagOrphans.graph.ReachedAsValues := by
  rw [Graph.tagOrphans]
  split
  · exact h
  · exact h.tail (.mark (List.Perm.refl _))

/-- What is in some order the image of a list is the image of that list in some order. -/
theorem exists_eq_map_of_perm {α β : Type} {f : α → β} {values : List β} {items : List α}
    (h : values.Perm (items.map f)) :
    ∃ order : List α, values = order.map f ∧ order.Perm items := by
  have hcomp : Relation.Comp (· = List.map f ·) List.Perm values items := by
    rw [List.eq_map_comp_perm]
    exact h
  exact hcomp

/-- A call on a graph whose names are texts is one on the graph with texts as names. -/
theorem ValueCall.exists_texts {texts : Graph String} {next : Graph Value}
    (h : texts.asValues.ValueCall next) :
    ∃ later : Graph String, texts.Call later ∧ next = later.asValues := by
  -- The order of the additions, or of the marking, is told in values; it is the image of one in
  -- texts.
  generalize hgraph : texts.asValues = graph at h
  cases h with
  | @process doc part additions hpart hperm =>
      rw [declareDocument_asValues, List.prefix_iff_eq_take] at hpart
      rw [hpart, Trail.map, ← List.map_take] at hperm
      obtain ⟨order, rfl, horder⟩ := exists_eq_map_of_perm hperm
      refine ⟨texts.addAll order, .process doc (List.take_prefix _ _) horder, ?_⟩
      rw [← hgraph, addAll_asValues]
  | @mark order hperm =>
      rw [← hgraph, candidates_asValues] at hperm
      obtain ⟨views, rfl, hviews⟩ := exists_eq_map_of_perm hperm
      refine ⟨(texts.tagAmong views).graph, .mark hviews, ?_⟩
      rw [← hgraph, tagAmong_asValues]

/-- **EVERY GRAPH WITH VALUES AS NAMES** that calls lead to is one with texts as names that calls
lead to. -/
theorem ReachedAsValues.exists_texts {graph : Graph Value} (h : graph.ReachedAsValues) :
    ∃ texts : Graph String, texts.Reached ∧ graph = texts.asValues := by
  induction h with
  | refl => exact ⟨Graph.empty, Relation.ReflTransGen.refl, rfl⟩
  | tail _ hcall ih =>
      obtain ⟨texts, hreached, rfl⟩ := ih
      obtain ⟨later, hlater, rfl⟩ := hcall.exists_texts
      exact ⟨later, hreached.tail hlater, rfl⟩

end Graph

end LookmlProject
