import LookmlProject.Graph.Reach
import Mathlib.Logic.Relation

/-! # The rounds of a walk list exactly what can be reached

    A round takes edges off the list that it walks through: the first edge equal
    to the one at hand goes, and the edge behind it is passed over.  So no single
    round is exhaustive, and the order of the result depends on the order of the
    edges.  What does not depend on it:

    * a round splits the edges into those that it takes and those that it leaves
      (`round_taken`), and it takes an edge only behind its source (`Chained`);
    * a round that takes nothing has met no edge with a listed source
      (`round_quiet`), so the walk ends at a set that the edges do not leave;
    * a round that takes something leaves fewer edges, so the walk ends
      (`rounds_taken`, `Settles`).

    The edges that are taken in the end are those whose source can be reached,
    each once for every time that it stands in the graph. -/

namespace LookmlProject.Graph

variable {Name : Type}

/-- An edge of the graph, of any kind, leads from one node to another. -/
def Leads (graph : Graph Name) (source target : Name) : Prop := (source, target) ∈ graph.edges

/-- A path along the edges, possibly without an edge. -/
def Reaches (graph : Graph Name) : Name → Name → Prop := Relation.ReflTransGen graph.Leads

/-- What some path from a root leads to. -/
def ReachedFrom (graph : Graph Name) (roots : List Name) (name : Name) : Prop :=
  ∃ root ∈ roots, graph.Reaches root name

/-- Every edge in a list starts at a node listed before or at the target of an edge before it. -/
def Chained : List Name → List (Edge Name) → Prop
  | _, [] => True
  | listed, edge :: rest => edge.1 ∈ listed ∧ Chained (listed ++ [edge.2]) rest

theorem chained_append (first second : List (Edge Name)) :
    ∀ listed : List Name, Chained listed (first ++ second) ↔
      Chained listed first ∧ Chained (listed ++ first.map Prod.snd) second := by
  induction first with
  | nil =>
      intro listed
      simp [Chained]
  | cons edge rest ih =>
      intro listed
      simp only [List.cons_append, Chained, ih, List.map_cons, List.append_assoc,
        List.nil_append, and_assoc]

/-- Following chained edges of a graph stays within what its roots reach. -/
theorem chained_reached (graph : Graph Name) {roots : List Name} (taken : List (Edge Name)) :
    ∀ listed : List Name, (∀ name ∈ listed, graph.ReachedFrom roots name) →
      (∀ edge ∈ taken, edge ∈ graph.edges) → Chained listed taken →
      ∀ edge ∈ taken, graph.ReachedFrom roots edge.1 ∧ graph.ReachedFrom roots edge.2 := by
  induction taken with
  | nil => intro listed _ _ _ edge he; exact nomatch he
  | cons first rest ih =>
      intro listed hlisted hedges hchain
      obtain ⟨hsource, hrest⟩ := hchain
      have hfirst : graph.ReachedFrom roots first.1 := hlisted first.1 hsource
      have htarget : graph.ReachedFrom roots first.2 := by
        obtain ⟨root, hroot, hpath⟩ := hfirst
        exact ⟨root, hroot, hpath.tail (hedges first (by simp))⟩
      intro edge he
      rcases List.mem_cons.mp he with rfl | hmem
      · exact ⟨hfirst, htarget⟩
      · refine ih (listed ++ [first.2]) ?_ ?_ hrest edge hmem
        · intro name hname
          rcases List.mem_append.mp hname with h | h
          · exact hlisted name h
          · rw [List.mem_singleton.mp h]
            exact htarget
        · intro e h
          exact hedges e (List.mem_cons_of_mem _ h)

section Rounds

variable [BEq Name]

/-- The walk from some nodes and edges on ends, with a result: a round that changes nothing is the
last. -/
inductive Settles : List Name → List (Edge Name) → List Name → Prop where
  | last {listed : List Name} {edges : List (Edge Name)} :
      (round listed [] false edges).changed = false →
      Settles listed edges (round listed [] false edges).listed
  | again {listed : List Name} {edges : List (Edge Name)} {result : List Name} :
      (round listed [] false edges).changed = true →
      Settles (round listed [] false edges).listed (round listed [] false edges).left result →
      Settles listed edges result

/-- A walk ends with one result only. -/
theorem Settles.unique {listed : List Name} {edges : List (Edge Name)} {first : List Name}
    (h : Settles listed edges first) :
    ∀ second : List Name, Settles listed edges second → second = first := by
  induction h with
  | last hquiet =>
      intro second h
      cases h with
      | last _ => rfl
      | again hchanged _ => rw [hquiet] at hchanged; exact nomatch hchanged
  | again hchanged _ ih =>
      intro second h
      cases h with
      | last hquiet => rw [hquiet] at hchanged; exact nomatch hchanged
      | again _ h => exact ih second h

variable [LawfulBEq Name]

/-- Taking an edge off the front part of the list leaves the part before it, in some order. -/
theorem erase_last_perm (passed : List (Edge Name)) (edge : Edge Name) :
    ((passed ++ [edge]).erase edge).Perm passed := by
  have h : ((passed ++ [edge]).erase edge).Perm ((edge :: passed).erase edge) :=
    (List.perm_append_singleton edge passed).erase edge
  rwa [List.erase_cons_head] at h

/-- A round splits the edges into those that it takes and those that it leaves. -/
theorem round_taken (listed : List Name) (passed : List (Edge Name)) (changed : Bool)
    (ahead : List (Edge Name)) :
    ∃ taken : List (Edge Name),
      (round listed passed changed ahead).listed = listed ++ taken.map Prod.snd ∧
      (taken ++ (round listed passed changed ahead).left).Perm (passed ++ ahead) ∧
      Chained listed taken ∧
      (round listed passed changed ahead).changed = (changed || !taken.isEmpty) := by
  fun_induction round listed passed changed ahead with
  | case1 listed passed changed =>
      exact ⟨[], by simp, by simp, trivial, by simp⟩
  | case2 listed passed changed edge hsource =>
      refine ⟨[edge], rfl, ?_, ⟨List.contains_iff_mem.mp hsource, trivial⟩, by simp⟩
      exact ((erase_last_perm passed edge).append_left [edge]).trans List.perm_append_comm
  | case3 listed passed changed edge hsource =>
      exact ⟨[], by simp, by simp, trivial, by simp⟩
  | case4 listed passed changed edge next rest hsource ih =>
      obtain ⟨taken, hlisted, hperm, hchain, _⟩ := ih
      refine ⟨edge :: taken, by rw [hlisted]; simp, ?_,
        ⟨List.contains_iff_mem.mp hsource, hchain⟩, by simp_all⟩
      have hleft : ((passed ++ [edge]).erase edge ++ [next] ++ rest).Perm
          (passed ++ (next :: rest)) := by
        rw [List.append_assoc]
        exact (erase_last_perm passed edge).append_right (next :: rest)
      exact ((hperm.trans hleft).cons edge).trans List.perm_middle.symm
  | case5 listed passed changed edge next rest hsource ih =>
      obtain ⟨taken, hlisted, hperm, hchain, hchanged⟩ := ih
      exact ⟨taken, hlisted, by simpa using hperm, hchain, hchanged⟩

/-- A round that changes nothing has met no edge whose source is listed. -/
theorem round_quiet (listed : List Name) (passed : List (Edge Name)) (changed : Bool)
    (ahead : List (Edge Name)) (h : (round listed passed changed ahead).changed = false) :
    ∀ edge ∈ ahead, edge.1 ∉ listed := by
  fun_induction round listed passed changed ahead with
  | case1 listed passed changed => intro edge he; exact nomatch he
  | case2 listed passed changed edge hsource => exact nomatch h
  | case3 listed passed changed edge hsource =>
      intro other he
      rw [List.mem_singleton.mp he]
      exact fun hmem => hsource (List.contains_iff_mem.mpr hmem)
  | case4 listed passed changed edge next rest hsource ih =>
      -- an edge was taken, and no later step of the round takes that back
      obtain ⟨taken, _, _, _, hchanged⟩ := round_taken (listed ++ [edge.2])
        ((passed ++ [edge]).erase edge ++ [next]) true rest
      rw [hchanged, Bool.true_or] at h
      exact nomatch h
  | case5 listed passed changed edge next rest hsource ih =>
      intro other he
      rcases List.mem_cons.mp he with rfl | hmem
      · exact fun hmem => hsource (List.contains_iff_mem.mpr hmem)
      · exact ih h other hmem

/-- The rounds split the edges into those taken, which are chained, and those left, none of which
starts at a listed node.  Each round but the last takes an edge, so as many rounds as there are
edges suffice. -/
theorem rounds_taken : ∀ (fuel : Nat) (listed : List Name) (edges : List (Edge Name)),
    edges.length < fuel →
    Settles listed edges (rounds fuel listed edges) ∧
    ∃ taken left : List (Edge Name),
      rounds fuel listed edges = listed ++ taken.map Prod.snd ∧
      (taken ++ left).Perm edges ∧ Chained listed taken ∧
      ∀ edge ∈ left, edge.1 ∉ rounds fuel listed edges := by
  intro fuel
  induction fuel with
  | zero => intro listed edges h; exact absurd h (Nat.not_lt_zero _)
  | succ fuel ih =>
      intro listed edges hfuel
      obtain ⟨first, hlisted, hperm, hchain, hchanged⟩ := round_taken listed [] false edges
      rw [List.nil_append] at hperm
      rw [Bool.false_or] at hchanged
      simp only [rounds]
      cases hc : (round listed [] false edges).changed with
      | false =>
          rw [if_neg Bool.false_ne_true]
          have hnil : first = [] := by simpa [hc] using hchanged
          subst hnil
          rw [List.map_nil, List.append_nil] at hlisted
          refine ⟨Settles.last hc, [], edges, by simp [hlisted], List.Perm.refl _, trivial, ?_⟩
          rw [hlisted]
          exact round_quiet listed [] false edges hc
      | true =>
          rw [if_pos rfl]
          -- A round with a change takes an edge, so less fuel will do for the edges that are left.
          have hfewer : (round listed [] false edges).left.length < fuel := by
            have hlength := hperm.length_eq
            have hpos : first ≠ [] := by
              intro hnil
              rw [hnil, hc] at hchanged
              exact nomatch hchanged
            have := List.length_pos_iff.mpr hpos
            rw [List.length_append] at hlength
            omega
          obtain ⟨hsettles, more, left, hresult, hsplit, hmore, hleft⟩ :=
            ih (round listed [] false edges).listed (round listed [] false edges).left hfewer
          refine ⟨Settles.again hc hsettles, first ++ more, left, ?_, ?_, ?_, hleft⟩
          · rw [hresult, hlisted, List.map_append, List.append_assoc]
          · rw [List.append_assoc]
            exact (hsplit.append_left first).trans hperm
          · rw [chained_append]
            rw [hlisted] at hmore
            exact ⟨hchain, hmore⟩

/-- The walk through a graph: it ends, the edges that it takes are chained from the roots, and those
that it leaves start outside of what it lists. -/
theorem connected_taken (graph : Graph Name) (roots : List Name) :
    Settles roots graph.edges (graph.connected roots) ∧
    ∃ taken left : List (Edge Name),
      graph.connected roots = roots ++ taken.map Prod.snd ∧
      (taken ++ left).Perm graph.edges ∧ Chained roots taken ∧
      ∀ edge ∈ left, edge.1 ∉ graph.connected roots :=
  rounds_taken (graph.edges.length + 1) roots graph.edges (Nat.lt_succ_self _)

/-- The walk lists the roots and what can be reached from them, and nothing else. -/
theorem mem_connected (graph : Graph Name) (roots : List Name) (name : Name) :
    name ∈ graph.connected roots ↔ graph.ReachedFrom roots name := by
  obtain ⟨_, taken, left, hresult, hsplit, hchain, hleft⟩ := connected_taken graph roots
  have htaken : ∀ edge ∈ taken, edge ∈ graph.edges := fun edge he =>
    hsplit.subset (List.mem_append_left _ he)
  constructor
  · intro hmem
    rw [hresult] at hmem
    rcases List.mem_append.mp hmem with hroot | htarget
    · exact ⟨name, hroot, Relation.ReflTransGen.refl⟩
    · obtain ⟨edge, he, rfl⟩ := List.mem_map.mp htarget
      exact (chained_reached graph taken roots
        (fun root hroot => ⟨root, hroot, Relation.ReflTransGen.refl⟩) htaken hchain edge he).2
  · rintro ⟨root, hroot, hpath⟩
    induction hpath with
    | refl => rw [hresult]; exact List.mem_append_left _ hroot
    | @tail source target _ hedge hsource =>
        -- the edge was taken: one that is left starts outside the list
        have hin : (source, target) ∈ taken ++ left := hsplit.symm.subset hedge
        rcases List.mem_append.mp hin with h | h
        · rw [hresult]
          exact List.mem_append_right _ (List.mem_map.mpr ⟨_, h, rfl⟩)
        · exact absurd hsource (hleft _ h)

open Classical in
/-- What the walk lists behind the roots: one entry for each edge, as often as it stands in the
graph, whose source can be reached. -/
theorem connected_perm (graph : Graph Name) (roots : List Name) :
    ∃ tail : List Name, graph.connected roots = roots ++ tail ∧
      tail.Perm
        ((graph.edges.filter fun edge => graph.ReachedFrom roots edge.1).map Prod.snd) := by
  obtain ⟨_, taken, left, hresult, hsplit, hchain, hleft⟩ := connected_taken graph roots
  refine ⟨taken.map Prod.snd, hresult, ?_⟩
  have htaken : taken.filter (fun edge => graph.ReachedFrom roots edge.1) = taken := by
    refine List.filter_eq_self.mpr fun edge he => decide_eq_true ?_
    exact (chained_reached graph taken roots
      (fun root hroot => ⟨root, hroot, Relation.ReflTransGen.refl⟩)
      (fun e h => hsplit.subset (List.mem_append_left _ h)) hchain edge he).1
  have hnone : left.filter (fun edge => graph.ReachedFrom roots edge.1) = [] := by
    refine List.filter_eq_nil_iff.mpr fun edge he => ?_
    rw [decide_eq_true_eq, ← mem_connected]
    exact hleft edge he
  have hfilter := hsplit.filter fun edge => decide (graph.ReachedFrom roots edge.1)
  rw [List.filter_append, htaken, hnone, List.append_nil] at hfilter
  exact hfilter.map Prod.snd

open Classical in
/-- **THE CONNECTED PART**: for every roots and every edges, repeated, looping or not, the walk
ends, and with one result: the roots in their order, and behind them, in some order, the target of
every edge whose source can be reached, once for each time that the edge stands in the graph.  So it
lists what can be reached and nothing else, and another order of the edges only permutes the list. 
Graph and roots are read and never replaced: a walk has its own list of nodes and its own list of
edges. -/
theorem connected_lists_reached_edges (graph : Graph Name) (roots : List Name) :
    (∀ result : List Name, Settles roots graph.edges result ↔ result = graph.connected roots) ∧
    (∃ tail : List Name, graph.connected roots = roots ++ tail ∧
      tail.Perm
        ((graph.edges.filter fun edge => graph.ReachedFrom roots edge.1).map Prod.snd)) ∧
    (∀ name : Name, name ∈ graph.connected roots ↔ graph.ReachedFrom roots name) ∧
    (∀ other : Graph Name, other.edges.Perm graph.edges →
      (other.connected roots).Perm (graph.connected roots)) := by
  have hsettles := (connected_taken graph roots).1
  refine ⟨?_, connected_perm graph roots, mem_connected graph roots, ?_⟩
  · intro result
    constructor
    · exact hsettles.unique result
    · rintro rfl
      exact hsettles
  · intro other hperm
    obtain ⟨tail, hresult, htail⟩ := connected_perm graph roots
    obtain ⟨tail', hresult', htail'⟩ := connected_perm other roots
    -- What is reached does not depend on the order of the edges.
    have hleads : other.Leads = graph.Leads := by
      funext source target
      exact propext hperm.mem_iff
    have hreached : other.ReachedFrom roots = graph.ReachedFrom roots := by
      funext name
      rw [ReachedFrom, ReachedFrom, Reaches, Reaches, hleads]
    rw [hreached] at htail'
    rw [hresult, hresult']
    refine List.Perm.append_left roots (htail'.trans (List.Perm.trans ?_ htail.symm))
    exact (hperm.filter _).map Prod.snd

end Rounds

/-- A graph with a repeated edge, a loop at one node and a cycle through two. -/
def tangled : Graph String :=
  ⟨[], [("e", "m")], [("v", "e"), ("v", "e")], [("e", "e")], [("v", "w"), ("w", "v")]⟩

theorem tangled_reaches_model :
    tangled.connected ["w"] = ["w", "v", "e", "e", "m", "w", "e"] ∧
      tangled.ReachedFrom ["w"] "m" ∧ ¬ tangled.ReachedFrom ["m"] "w" := by
  obtain ⟨_, _, hmem, _⟩ := connected_lists_reached_edges tangled ["w"]
  obtain ⟨_, _, hback, _⟩ := connected_lists_reached_edges tangled ["m"]
  exact ⟨by decide, (hmem "m").mp (by decide), fun h => absurd ((hback "w").mpr h) (by decide)⟩

end LookmlProject.Graph
