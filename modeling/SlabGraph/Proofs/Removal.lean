import SlabGraph.Proofs.Frame
import SlabGraph.Proofs.Order

/-!
# What Is Left When a Node Is Gone

Deleting a node takes out the node and the edges that it is an end of, and nothing else
(`Graph.NodeRemoved`). All lists of the graph, those of all nodes and of all edges and those of the
other nodes, are what they were without these, in the same order. A self-loop is on two lists of the
node and goes once, and of parallel edges each one goes. What stays behind reads as it did.

The deletion of one edge changes the very lists by which the loop finds the next one. That the
loop ends and removes all of them is said once, on the view (`Graph.Holds.deleteNode_run`): the
edges that leave are those that were in a list of the node at the beginning.

## Main definitions

* `View.spares`, the edges that stay; `Graph.NodeRemoved`.

## Main results

* `Graph.Holds.nodeRemoved`: from the view to the graph;
* `World.deleteNode_exact`: all worlds.
-/

namespace SlabGraph

variable {N E : Type}

/-- Whether an edge is in no list of a node. -/
def View.spares (V : View N E) (n e : Ptr) : Bool :=
  !(V.inc n .down).contains e && !(V.inc n .up).contains e

/-- An edge that is kept keeps its handle. -/
theorem View.edgeAt_prune {V : View N E} {k : Ptr → Bool} {e : Ptr} (he : k e = true) :
    (V.prune k).edgeAt e = V.edgeAt e := by
  have hbody : (V.prune k).edges.body e = V.edges.body e := if_pos he
  rw [edgeAt, edgeAt, hbody]
  rfl

namespace Graph

/-- What is left of a graph when a node is gone with the edges it was an end of. -/
structure NodeRemoved (g g' : Graph N E) (node : NodeHandle) : Prop where
  /-- The list of all nodes. -/
  nodes : ∃ xs, g.nodeList = .ok xs ∧ g'.nodeList = .ok (xs.filter fun x => x ≠ node)
  /-- The list of all edges. -/
  edges : ∃ es, g.edgeList = .ok es ∧ g'.edgeList = .ok (es.filter fun e => !g.isEnd node e)
  /-- The lists of the other nodes. -/
  incident : ∀ other, g.containsNode other = true → other ≠ node → ∀ dir, ∃ es,
    g.walkEdges other (.along dir) = .ok es ∧
    g'.walkEdges other (.along dir) = .ok (es.filter fun e => !g.isEnd node e)
  /-- One node is gone. -/
  numNodes : g'.nodes.count + 1 = g.nodes.count
  /-- Each edge that had the node as an end is gone, and counts once. -/
  numEdges : ∃ es, g.edgeList = .ok es ∧ es.Nodup ∧
    g'.edges.count + es.countP (g.isEnd node) = g.edges.count
  /-- The node is dead. -/
  dead : g'.containsNode node = false
  /-- So are the edges. -/
  dead_edge : ∀ edge, g.isEnd node edge = true → g'.containsEdge edge = false
  /-- The other nodes are as before. -/
  keeps_node : ∀ other, g.containsNode other = true → other ≠ node → g.SameNode g' other
  /-- The other edges are as before. -/
  keeps_edge : ∀ edge, g.containsEdge edge = true → g.isEnd node edge = false →
    g.SameEdge g' edge ∧ ∀ dir, g'.edgeEnd edge dir = g.edgeEnd edge dir
  /-- The tags in use are as before. -/
  ledgers : g.SameLedgers g'

variable {g g' : Graph N E} {V : View N E} {node : NodeHandle} {c : Body Unit N}

/-! ### Who stays -/

/-- An edge is in no list of a node exactly if the node is no end of it. -/
theorem Holds.spares_eq (h : Holds g V) (hc : V.nodes.find? V.id node = some c)
    {edge : EdgeHandle} {b : Body (DirPair Ptr) E} (hb : V.edges.find? V.id edge = some b) :
    V.spares node.slot edge.slot = !g.isEnd node edge := by
  rw [h.isEnd_eq hc hb, Bool.not_or, View.spares]

/-- The handles of the other nodes find what they found before. -/
theorem find?_node_removeNode (hc : V.nodes.find? V.id node = some c) {other : NodeHandle}
    {d : Body Unit N} (hd : V.nodes.find? V.id other = some d) (hne : other ≠ node) :
    (V.removeNode node.slot).nodes.find? V.id other = some d := by
  have hslot : other.slot ≠ node.slot := fun heq => hne (Population.eq_of_find? hd hc heq)
  refine (Population.find?_keep _).trans ?_
  rw [if_pos (bne_iff_ne.2 hslot), hd]

/-- The handle of an edge of other nodes finds what it found before. -/
theorem find?_edge_removeNode {edge : EdgeHandle} {b : Body (DirPair Ptr) E}
    (hb : V.edges.find? V.id edge = some b) (hspares : V.spares node.slot edge.slot = true) :
    (V.removeNode node.slot).edges.find? V.id edge = some b :=
  (Population.find?_keep _).trans ((if_pos hspares).trans hb)

/-- An edge that is found after a node has left is one of other nodes, and was found before. -/
theorem find?_edge_of_removeNode {edge : EdgeHandle} {b : Body (DirPair Ptr) E}
    (hb : (V.removeNode node.slot).edges.find? (V.removeNode node.slot).id edge = some b) :
    V.spares node.slot edge.slot = true ∧ V.edges.find? V.id edge = some b := by
  have hkeep : (if V.spares node.slot edge.slot then V.edges.find? V.id edge else none) = some b :=
    (Population.find?_keep _).symm.trans hb
  split_ifs at hkeep with hspares
  exact ⟨hspares, hkeep⟩

/-! ### The lists -/

/-- The nodes that are left keep their order. -/
theorem Holds.nodeList_removeNode (h : Holds g V) (hc : V.nodes.find? V.id node = some c) :
    (V.removeNode node.slot).nodes.handles .node V.id =
      (V.nodes.handles .node V.id).filter fun x => x ≠ node := by
  refine (Population.handles_keep _ _ _ _).trans (List.filter_congr fun x hx => ?_)
  obtain ⟨d, hd⟩ := Option.isSome_iff_exists.1 (h.consistent.nodes.mem_handles.1 hx)
  rw [Bool.eq_iff_iff, bne_iff_ne, decide_eq_true_iff]
  constructor
  · intro hne heq
    exact hne (congrArg Handle.slot heq)
  · intro hne heq
    exact hne (Population.eq_of_find? hd hc heq)

/-- The list of all edges, if some are kept. What is kept is said of handles. -/
theorem Holds.edgeList_prune (h : Holds g V) {k : Ptr → Bool} {p : EdgeHandle → Bool}
    (hk : ∀ x b, V.edges.find? V.id x = some b → k x.slot = p x) :
    (V.prune k).edges.handles .edge V.id = (V.edges.handles .edge V.id).filter p := by
  refine (Population.handles_keep _ _ _ _).trans (List.filter_congr fun x hx => ?_)
  obtain ⟨b, hb⟩ := Option.isSome_iff_exists.1 (h.consistent.edges.mem_handles.1 hx)
  exact hk x b hb

/-- A list of a node, if some edges are kept. -/
theorem Holds.inc_prune (h : Holds g V) {k : Ptr → Bool} {p : EdgeHandle → Bool}
    (hk : ∀ x b, V.edges.find? V.id x = some b → k x.slot = p x) (n : Ptr) (dir : Direction) :
    ((V.prune k).inc n dir).map (V.prune k).edgeAt = ((V.inc n dir).map V.edgeAt).filter p := by
  have hfilter : (V.inc n dir).filter k = (V.inc n dir).filter (p ∘ V.edgeAt) := by
    refine List.filter_congr fun e he => ?_
    obtain ⟨b, hb, -⟩ := h.consistent.body_of_mem_inc he
    exact hk _ b (View.find?_edgeAt hb)
  rw [List.filter_map, ← hfilter]
  exact List.map_congr_left fun e he => View.edgeAt_prune (List.mem_filter.1 he).2

/-- The edges that are left keep their order. -/
theorem Holds.edgeList_removeNode (h : Holds g V) (hc : V.nodes.find? V.id node = some c) :
    (V.removeNode node.slot).edges.handles .edge V.id =
      (V.edges.handles .edge V.id).filter fun e => !g.isEnd node e :=
  h.edgeList_prune fun _ _ hb => h.spares_eq hc hb

/-- A list of another node. -/
theorem Holds.inc_removeNode (h : Holds g V) (hc : V.nodes.find? V.id node = some c) (n : Ptr)
    (dir : Direction) :
    ((V.removeNode node.slot).inc n dir).map (V.removeNode node.slot).edgeAt =
      ((V.inc n dir).map V.edgeAt).filter fun e => !g.isEnd node e :=
  h.inc_prune (fun _ _ hb => h.spares_eq hc hb) n dir

/-! ### The graph -/

/-- A node that leaves the view leaves the graph. -/
theorem Holds.nodeRemoved (h : Holds g V) (hc : V.nodes.find? V.id node = some c)
    (h' : Holds g' (V.removeNode node.slot)) : g.NodeRemoved g' node := by
  have hsame : V.SameHost (V.removeNode node.slot) := ⟨rfl, rfl, rfl⟩
  have hnodes' : g'.nodeList = .ok ((V.nodes.handles .node V.id).filter fun x => x ≠ node) :=
    h'.nodeList_run.trans (congrArg _ (h.nodeList_removeNode hc))
  have hedges' : g'.edgeList =
      .ok ((V.edges.handles .edge V.id).filter fun e => !g.isEnd node e) :=
    h'.edgeList_run.trans (congrArg _ (h.edgeList_removeNode hc))
  constructor
  case nodes => exact ⟨_, h.nodeList_run, hnodes'⟩
  case edges => exact ⟨_, h.edgeList_run, hedges'⟩
  case incident =>
    intro other hlive hne dir
    obtain ⟨d, hd⟩ := h.exists_node hlive
    refine ⟨_, h.walkAlong_run hd dir, ?_⟩
    rw [h'.walkAlong_run (find?_node_removeNode hc hd hne) dir, h.inc_removeNode hc]
  case numNodes =>
    rw [h.shown.nodes.count, h'.shown.nodes.count]
    exact h.consistent.nodes.length_keep_ne (Population.find?_eq_some_iff.1 hc).1
  case numEdges =>
    refine ⟨_, h.edgeList_run, h.consistent.edges.nodup_handles .edge V.id, ?_⟩
    -- the edges are those that have the node as an end and those that do not
    have hcount : g'.edges.count =
        ((V.edges.handles .edge V.id).filter fun e => !g.isEnd node e).length := by
      rw [h'.shown.edges.count, ← h.edgeList_removeNode hc, Population.length_handles]
    have hsplit := List.length_eq_countP_add_countP (g.isEnd node)
      (l := V.edges.handles .edge V.id)
    rw [Population.length_handles, ← h.shown.edges.count] at hsplit
    rw [hcount, ← List.countP_eq_length_filter]
    simp only [Bool.not_eq_true, Bool.decide_eq_false] at hsplit
    omega
  case dead =>
    rw [h'.containsNode_eq]
    change ((V.nodes.keep (· != node.slot)).find? V.id node).isSome = false
    rw [Population.find?_keep, bne_self_eq_false]
    rfl
  case dead_edge =>
    intro edge hend
    rw [Bool.eq_false_iff]
    intro hlive
    obtain ⟨b, hb'⟩ := h'.exists_edge hlive
    obtain ⟨hspares, hb⟩ := find?_edge_of_removeNode hb'
    rw [h.spares_eq hc hb, hend] at hspares
    cases hspares
  case keeps_node =>
    intro other hlive hne
    obtain ⟨d, hd⟩ := h.exists_node hlive
    exact h.sameNode h' hsame hd (find?_node_removeNode hc hd hne) rfl rfl
  case keeps_edge =>
    intro edge hlive hnot
    obtain ⟨b, hb⟩ := h.exists_edge hlive
    have hspares : V.spares node.slot edge.slot = true := by
      rw [h.spares_eq hc hb, hnot]
      rfl
    have hb' := find?_edge_removeNode hb hspares
    refine ⟨h.sameEdge h' hsame hb hb' rfl rfl, fun dir => ?_⟩
    refine h.sameEnd h' rfl hb hb' rfl fun d d' hd hd' => ?_
    have hkeep : (if b.incidence.get dir != node.slot then V.nodes.body (b.incidence.get dir)
        else none) = some d' := hd'
    split_ifs at hkeep
    exact congrArg Body.uid (Option.some.inj (hkeep.symm.trans hd))
  case ledgers => exact h.sameLedgers h' hsame

end Graph

/-! ### Worlds -/

namespace World

/-- In all worlds, deleting a live node ends, answers its payload, and takes out the node with the
edges that it is an end of, and nothing else. -/
theorem deleteNode_exact (supply : IdSupply) (steps : List (Step N E)) :
    ∀ r ∈ ((start supply).run steps).graphs, ∀ node, r.graph.containsNode node = true →
      ∃ data g', r.graph.nodeData node = .ok data ∧ Graph.deleteNode node r.graph = .ok data g' ∧
        r.graph.NodeRemoved g' node := by
  intro r hr node hlive
  obtain ⟨V, h, -⟩ := registered_run supply steps r hr
  obtain ⟨c, hc⟩ := h.exists_node hlive
  obtain ⟨g', hrun, h'⟩ := h.deleteNode_run hc
  exact ⟨c.data, g', h.nodeData_run hc, hrun, h.nodeRemoved hc h'⟩

/-- A world with three nodes. The first one has a self-loop and two parallel edges to the second
one, and an edge goes from the second to the third. -/
def withSelfLoop : World Nat Nat :=
  let node (uid : Nat) : NodeHandle := ⟨⟨0⟩, uid, ⟨uid, 0⟩⟩
  (start {}).run [.create ⟨1, 1⟩, .call 0 (.newNode 5), .call 0 (.newNode 6), .call 0 (.newNode 7),
    .call 0 (.newEdge (node 0) (node 0) 8), .call 0 (.newEdge (node 0) (node 1) 9),
    .call 0 (.newEdge (node 1) (node 2) 10), .call 0 (.newEdge (node 0) (node 1) 11)]

/-- A node with a self-loop and two parallel edges is deleted, and these three edges with it. -/
theorem deleteNode_exact_withSelfLoop : ∃ h : 0 < withSelfLoop.graphs.length,
    let g := withSelfLoop.graphs[0].graph
    let node : NodeHandle := ⟨⟨0⟩, 0, ⟨0, 0⟩⟩
    g.containsNode node = true ∧ g.edges.count = 4 ∧
    ∃ g', Graph.deleteNode node g = .ok 5 g' ∧ g.NodeRemoved g' node ∧
      g'.edgeList = .ok [⟨⟨0⟩, 2, ⟨2, 0⟩⟩] := by
  have h : 0 < withSelfLoop.graphs.length := by decide +kernel
  have hlive : withSelfLoop.graphs[0].graph.containsNode ⟨⟨0⟩, 0, ⟨0, 0⟩⟩ = true := by
    decide +kernel +revert
  have hpayload : withSelfLoop.graphs[0].graph.nodeData ⟨⟨0⟩, 0, ⟨0, 0⟩⟩ = .ok 5 := by
    decide +kernel +revert
  have hleft : withSelfLoop.graphs[0].graph.edgeList.map
      (·.filter fun e => !withSelfLoop.graphs[0].graph.isEnd ⟨⟨0⟩, 0, ⟨0, 0⟩⟩ e) =
        .ok [⟨⟨0⟩, 2, ⟨2, 0⟩⟩] := by
    decide +kernel +revert
  have hcount : withSelfLoop.graphs[0].graph.edges.count = 4 := by decide +kernel +revert
  obtain ⟨data, g', hdata, hrun, hremoved⟩ := deleteNode_exact {} _ _ (List.getElem_mem h) _ hlive
  obtain rfl := Except.ok.inj (hdata.symm.trans hpayload)
  obtain ⟨es, hes, hes'⟩ := hremoved.edges
  rw [hes] at hleft
  exact ⟨h, hlive, hcount, g', hrun, hremoved, hes'.trans hleft⟩

end World

end SlabGraph
