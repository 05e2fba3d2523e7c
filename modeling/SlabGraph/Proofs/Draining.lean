import SlabGraph.Proofs.Adjacency
import SlabGraph.Proofs.Removal

/-!
# Draining the Edges of a Node

A cursor holds no reference to the graph, so a loop may move it on and delete the edge that it has
left, until it is at the end (`EdgeCursor.Drains`). Deleting the edge changes the list that the
cursor is going through, a list of the node at the other end and the list of all edges. But the edge
that the cursor has moved on to is still in its list, and the ones after it are those that were.

So the loop ends, no round of it fails, it deletes the edges of the walk in their order, each once,
and what else there is in the graph stays as it was (`Graph.EdgesRemoved`). There is one exception.
The walk over both lists meets a self-loop twice, and after the first time the edge is gone. A node
without self-loops has no edge in both of its lists, and then this loop deletes all edges with the
node as an end.

The proof goes through the edges that are left. Once the first of them is deleted, the cursors of
the walk are the ones that were left, and the graph shows what it would with the edge left out
(`View.prune`).

## Main definitions

* `EdgeCursor.leave`, one round, and `EdgeCursor.Drains`, the loop;
* `Graph.EdgesRemoved`.

## Main results

* `EdgeCursor.Drains.unique`: there is one way for the loop to go;
* `Graph.Holds.drains`, on the view, and `Graph.Holds.edgesRemoved`, from the view to the graph;
* `World.drains_walk`.
-/

namespace SlabGraph

variable {N E : Type}

/-! ### The loop -/

namespace EdgeCursor

/-- One round of the loop: the cursor moves on, and the edge that it was at is deleted. -/
def leave (cursor : EdgeCursor) : Action (Graph N E) (EdgeHandle × EdgeCursor) := do
  let next ← Action.read fun g => cursor.advance g
  let edge ← Action.check cursor.edge
  let _ ← Graph.deleteEdge edge
  return (edge, next)

/-- The loop from a cursor to `stop`, with the edges that it deletes and the graph it leaves. -/
inductive Drains (stop : EdgeCursor) :
    Graph N E → EdgeCursor → List EdgeHandle → Graph N E → Prop
  | done (g : Graph N E) : Drains stop g stop [] g
  | step {g g' g'' : Graph N E} {c c' : EdgeCursor} {edge : EdgeHandle}
      {edges : List EdgeHandle} : c ≠ stop → c.leave g = .ok (edge, c') g' →
      Drains stop g' c' edges g'' → Drains stop g c (edge :: edges) g''

/-- There is one way for the loop to go. -/
theorem Drains.unique {stop c : EdgeCursor} {g g' g'' : Graph N E} {es es' : List EdgeHandle}
    (h : Drains stop g c es g') (h' : Drains stop g c es' g'') : es = es' ∧ g' = g'' := by
  induction h generalizing es' g'' with
  | done g =>
      cases h' with
      | done => exact ⟨rfl, rfl⟩
      | step hne => exact absurd rfl hne
  | step hne hrun _ ih =>
      cases h' with
      | done => exact absurd rfl hne
      | step _ hrun' hrest =>
          rw [hrun] at hrun'
          cases hrun'
          obtain ⟨rfl, rfl⟩ := ih hrest
          exact ⟨rfl, rfl⟩

end EdgeCursor

/-! ### A walk when edges leave -/

namespace View

variable {V : View N E} {n : Ptr} {walk : Walk}

/-- The slots of the edges that a walk over the edges of a node meets. -/
def walkSlots (V : View N E) (n : Ptr) : Walk → List Ptr
  | .incoming => V.inc n .up
  | .outgoing => V.inc n .down
  | .both _ => V.inc n .up ++ V.inc n .down

/-- The edges that a walk meets are those in the slots it meets. -/
theorem walkEdges_eq (V : View N E) (n : Ptr) (walk : Walk) :
    V.walkEdges n walk = (V.walkSlots n walk).map V.edgeAt := by
  cases walk <;> simp [walkEdges, walkSlots]

/-- The cursors of a walk stand at the edges in the slots it meets. -/
theorem map_edge?_cursors (V : View N E) (n : Ptr) (walk : Walk) :
    (V.cursors n walk).map (·.edge?) = (V.walkSlots n walk).map fun e => some (V.edgeAt e) := by
  cases walk <;> simp [cursors, walkSlots, cursorAt, Function.comp_def]

/-- When only some edges are kept, a walk meets those of them that it met before. -/
theorem walkSlots_prune (V : View N E) (k : Ptr → Bool) (n : Ptr) (walk : Walk) :
    (V.prune k).walkSlots n walk = (V.walkSlots n walk).filter k := by
  cases walk <;> simp [walkSlots, prune]

/-- Keeping all edges changes nothing. -/
theorem prune_eq_self {k : Ptr → Bool} (hk : ∀ e, k e = true) : V.prune k = V := by
  obtain rfl : k = fun _ => true := funext hk
  simp [prune, Population.keep]

/-- The cursors of a walk, if some edges are kept. -/
theorem cursors_prune (V : View N E) (k : Ptr → Bool) (n : Ptr) (walk : Walk) :
    (V.prune k).cursors n walk =
      (V.cursors n walk).filter fun c => c.edge?.all fun x => k x.slot := by
  have hlist : ∀ (walk : Walk) (dir : Direction),
      ((V.prune k).inc n dir).map ((V.prune k).cursorAt walk) =
        ((V.inc n dir).map (V.cursorAt walk)).filter fun c => c.edge?.all fun x => k x.slot := by
    intro walk dir
    rw [List.filter_map]
    refine List.map_congr_left fun e he => ?_
    rw [cursorAt, cursorAt, edgeAt_prune (List.mem_filter.1 he).2]
  cases walk with
  | incoming => exact hlist _ _
  | outgoing => exact hlist _ _
  | both inPreds => simp only [cursors, hlist, List.filter_append]

/-- There are edges in the slots that a walk meets. -/
theorem Consistent.exists_of_mem_walkSlots (h : V.Consistent) {e : Ptr}
    (he : e ∈ V.walkSlots n walk) : ∃ d, V.edges.body e = some d := by
  have hlist : ∀ dir, e ∈ V.inc n dir → ∃ d, V.edges.body e = some d := fun dir hmem =>
    (h.body_of_mem_inc hmem).imp fun _ hd => hd.1
  cases walk with
  | incoming => exact hlist .up he
  | outgoing => exact hlist .down he
  | both inPreds => exact (List.mem_append.1 he).elim (hlist .up) (hlist .down)

/-- When the first edge of a walk leaves that is met once, the cursors at the others are left. -/
theorem cursors_prune_first {e : Ptr} {es : List Ptr} (hxs : V.walkSlots n walk = e :: es)
    (hnot : e ∉ es) :
    ∃ c cs, V.cursors n walk = c :: cs ∧ c.edge? = some (V.edgeAt e) ∧
      (V.prune (· != e)).walkSlots n walk = es ∧ (V.prune (· != e)).cursors n walk = cs := by
  have hne : ∀ f ∈ es, f ≠ e := fun f hf heq => hnot (heq ▸ hf)
  have hedges := V.map_edge?_cursors n walk
  rw [hxs] at hedges
  obtain ⟨c, cs, hcs, hc, hrest⟩ := List.map_eq_cons_iff.1 hedges
  refine ⟨c, cs, hcs, hc, ?_, ?_⟩
  · rw [walkSlots_prune, hxs, List.filter_cons_of_neg (by simp)]
    exact List.filter_eq_self.2 fun f hf => bne_iff_ne.2 (hne f hf)
  · rw [cursors_prune, hcs, List.filter_cons_of_neg (by simp [hc, edgeAt])]
    refine List.filter_eq_self.2 fun c' hc' => ?_
    obtain ⟨f, hf, hedge⟩ := List.mem_map.1 (hrest ▸ List.mem_map_of_mem hc')
    simpa [← hedge, edgeAt] using hne f hf

end View

namespace Graph

/-- The loop over a walk that meets no edge twice deletes the edges of the walk. -/
theorem Holds.drains {xs : List Ptr} {g : Graph N E} {V : View N E} (h : Holds g V)
    {node : NodeHandle} {b : Body Unit N} (hb : V.nodes.find? V.id node = some b) {walk : Walk}
    (hxs : V.walkSlots node.slot walk = xs) (hnodup : xs.Nodup) :
    ∃ g', EdgeCursor.Drains (.atEnd walk) g
        ((V.cursors node.slot walk).head?.getD (.atEnd walk)) (xs.map V.edgeAt) g' ∧
      Holds g' (V.prune fun e => !xs.contains e) := by
  induction xs generalizing g V with
  | nil =>
      have hcs : V.cursors node.slot walk = [] := by
        simpa [hxs] using V.map_edge?_cursors node.slot walk
      rw [hcs, View.prune_eq_self fun e => by simp]
      exact ⟨g, .done g, h⟩
  | cons e es ih =>
      obtain ⟨hnot, hes⟩ := List.nodup_cons.1 hnodup
      obtain ⟨c, cs, hcs, hc, hslots, hleft⟩ := View.cursors_prune_first hxs hnot
      obtain ⟨d, hd⟩ := h.consistent.exists_of_mem_walkSlots
        (hxs ▸ List.mem_cons_self : e ∈ V.walkSlots node.slot walk)
      obtain ⟨g₁, hdelete, h₁⟩ : ∃ g₁, deleteEdge (V.edgeAt e) g = .ok d.data g₁ ∧
          Holds g₁ (V.prune (· != e)) := h.deleteEdge_run (View.find?_edgeAt hd)
      have hleave : c.leave g = .ok (V.edgeAt e, cs.head?.getD (.atEnd walk)) g₁ := by
        have hnext := (h.leads hb walk).next c cs (hcs ▸ List.suffix_rfl)
        simp [EdgeCursor.leave, hnext, EdgeCursor.edge, hc, hdelete]
      have hstop : c ≠ .atEnd walk := (h.leads hb walk).ne_stop (hcs ▸ List.mem_cons_self)
      -- the others are deleted from what is left, where they have the handles that they had
      obtain ⟨g', hdrains, h'⟩ := ih h₁ hb hslots hes
      have hat : es.map (V.prune (· != e)).edgeAt = es.map V.edgeAt :=
        List.map_congr_left fun f hf =>
          View.edgeAt_prune (bne_iff_ne.2 fun heq => hnot (heq ▸ hf))
      rw [hleft, hat] at hdrains
      have hprune : (V.prune (· != e)).prune (fun f => !es.contains f) =
          V.prune fun f => !(e :: es).contains f := by
        rw [View.prune_prune]
        congr
        funext f
        rw [List.contains_cons, Bool.not_or]
        rfl
      rw [hprune] at h'
      rw [hcs]
      exact ⟨g', .step hstop hleave hdrains, h'⟩

/-! ### What is left -/

/-- What is left of a graph when some edges are gone. -/
structure EdgesRemoved (g g' : Graph N E) (gone : List EdgeHandle) : Prop where
  /-- The edges were live. -/
  live : ∀ edge ∈ gone, g.containsEdge edge = true
  /-- Each of them is gone once. -/
  nodup : gone.Nodup
  /-- The list of all nodes is as before. -/
  nodes : ∃ xs, g.nodeList = .ok xs ∧ g'.nodeList = .ok xs
  /-- The list of all edges. -/
  edges : ∃ es, g.edgeList = .ok es ∧ g'.edgeList = .ok (es.filter (· ∉ gone))
  /-- The lists of the nodes. -/
  incident : ∀ node, g.containsNode node = true → ∀ dir, ∃ es,
    g.walkEdges node (.along dir) = .ok es ∧
    g'.walkEdges node (.along dir) = .ok (es.filter (· ∉ gone))
  /-- There are as many nodes as before. -/
  numNodes : g'.nodes.count = g.nodes.count
  /-- There are so many edges less. -/
  numEdges : g'.edges.count + gone.length = g.edges.count
  /-- The edges are dead. -/
  dead : ∀ edge ∈ gone, g'.containsEdge edge = false
  /-- The nodes are as before. -/
  keeps_node : ∀ node, g.containsNode node = true → g.SameNode g' node
  /-- The other edges are as before. -/
  keeps_edge : ∀ edge, g.containsEdge edge = true → edge ∉ gone →
    g.SameEdge g' edge ∧ ∀ dir, g'.edgeEnd edge dir = g.edgeEnd edge dir
  /-- The tags in use are as before. -/
  ledgers : g.SameLedgers g'

variable {g g' : Graph N E} {V : View N E} {xs : List Ptr}

/-- A live edge is kept if it is not among those that leave. -/
theorem kept_eq {x : EdgeHandle} {b : Body (DirPair Ptr) E} (hb : V.edges.find? V.id x = some b) :
    (!xs.contains x.slot) = decide (x ∉ xs.map V.edgeAt) := by
  have hmem : x ∈ xs.map V.edgeAt ↔ x.slot ∈ xs := by
    rw [List.mem_map]
    constructor
    · rintro ⟨e, he, rfl⟩
      exact he
    · intro he
      exact ⟨x.slot, he, View.edgeAt_slot hb⟩
  simp [hmem]

/-- As many edges leave the graph as leave the view. -/
theorem Holds.count_prune (h : Holds g V) (hlive : ∀ e ∈ xs, ∃ d, V.edges.body e = some d)
    (hnodup : xs.Nodup) (h' : Holds g' (V.prune fun e => !xs.contains e)) :
    g'.edges.count + (xs.map V.edgeAt).length = g.edges.count := by
  have hcount : g'.edges.count =
      ((V.edges.handles .edge V.id).filter (· ∉ xs.map V.edgeAt)).length := by
    rw [h'.shown.edges.count, ← h.edgeList_prune (k := fun e => !xs.contains e)
      fun _ _ hb => kept_eq hb, Population.length_handles]
  have hperm : ((V.edges.handles .edge V.id).filter (· ∈ xs.map V.edgeAt)).Perm
      (xs.map V.edgeAt) := by
    refine (List.perm_ext_iff_of_nodup ((h.consistent.edges.nodup_handles _ _).filter _)
      (hnodup.map View.edgeAt_injective)).2 fun x => ?_
    rw [List.mem_filter, decide_eq_true_iff, and_iff_right_iff_imp]
    intro hx
    obtain ⟨e, he, rfl⟩ := List.mem_map.1 hx
    obtain ⟨d, hd⟩ := hlive e he
    exact h.consistent.edges.mem_handles.2 (by rw [View.find?_edgeAt hd]; rfl)
  -- the edges are those that are gone and those that are not
  have hsplit := List.length_eq_countP_add_countP (· ∈ xs.map V.edgeAt)
    (l := V.edges.handles .edge V.id)
  rw [Population.length_handles, ← h.shown.edges.count, List.countP_eq_length_filter,
    hperm.length_eq] at hsplit
  rw [hcount, ← List.countP_eq_length_filter]
  simp only [decide_eq_true_iff] at hsplit
  omega

/-- Edges that leave the view leave the graph. -/
theorem Holds.edgesRemoved (h : Holds g V) (hlive : ∀ e ∈ xs, ∃ d, V.edges.body e = some d)
    (hnodup : xs.Nodup) (h' : Holds g' (V.prune fun e => !xs.contains e)) :
    g.EdgesRemoved g' (xs.map V.edgeAt) := by
  have hsame : V.SameHost (V.prune fun e => !xs.contains e) := ⟨rfl, rfl, rfl⟩
  constructor
  case live =>
    intro edge hedge
    obtain ⟨e, he, rfl⟩ := List.mem_map.1 hedge
    obtain ⟨d, hd⟩ := hlive e he
    rw [h.containsEdge_eq, View.find?_edgeAt hd]
    rfl
  case nodup => exact hnodup.map View.edgeAt_injective
  case nodes => exact ⟨_, h.nodeList_run, h'.nodeList_run⟩
  case edges =>
    refine ⟨_, h.edgeList_run, h'.edgeList_run.trans (congrArg _ ?_)⟩
    exact h.edgeList_prune fun _ _ hb => kept_eq hb
  case incident =>
    intro node hnode dir
    obtain ⟨b, hb⟩ := h.exists_node hnode
    refine ⟨_, h.walkAlong_run hb dir, (h'.walkAlong_run hb dir).trans (congrArg _ ?_)⟩
    exact h.inc_prune (fun _ _ hb => kept_eq hb) node.slot dir
  case numNodes => rw [h.shown.nodes.count, h'.shown.nodes.count]; rfl
  case numEdges => exact h.count_prune hlive hnodup h'
  case dead =>
    intro edge hedge
    obtain ⟨e, he, rfl⟩ := List.mem_map.1 hedge
    have hkeep : (!xs.contains e) = false := by simp [he]
    rw [h'.containsEdge_eq]
    change ((V.edges.keep fun e => !xs.contains e).find? V.id (V.edgeAt e)).isSome = false
    rw [Population.find?_keep]
    exact congrArg Option.isSome (if_neg (Bool.eq_false_iff.1 hkeep))
  case keeps_node =>
    intro node hnode
    obtain ⟨b, hb⟩ := h.exists_node hnode
    exact h.sameNode h' hsame hb hb rfl rfl
  case keeps_edge =>
    intro edge hedge hnot
    obtain ⟨b, hb⟩ := h.exists_edge hedge
    -- an edge that is not gone has a slot that is not gone either
    have hkept : (!xs.contains edge.slot) = true := by
      rw [kept_eq hb, decide_eq_true hnot]
    have hb' : (V.prune fun e => !xs.contains e).edges.find? V.id edge = some b :=
      (Population.find?_keep _).trans ((if_pos hkept).trans hb)
    refine ⟨h.sameEdge h' hsame hb hb' rfl rfl, fun dir => ?_⟩
    exact h.sameEnd h' rfl hb hb' rfl fun c c' hc hc' =>
      congrArg Body.uid (Option.some.inj (hc'.symm.trans hc))
  case ledgers => exact h.sameLedgers h' hsame

/-! ### Nodes without self-loops -/

/-- No edge leads from a node to itself. -/
def Loopless (g : Graph N E) (node : NodeHandle) : Prop :=
  ∃ es, g.edgeList = .ok es ∧ ∀ edge ∈ es, ¬g.Joins node node edge

variable {node : NodeHandle} {b : Body Unit N}

/-- A walk over one list of a node meets no edge twice, and neither does the walk over both, if the
node has no self-loop. -/
theorem Holds.nodup_walkSlots (h : Holds g V) (hb : V.nodes.find? V.id node = some b) (walk : Walk)
    (hloop : ∀ inPreds, walk = .both inPreds → g.Loopless node) :
    (V.walkSlots node.slot walk).Nodup := by
  cases walk with
  | incoming | outgoing => exact h.shown.inc_nodup _ _
  | both inPreds =>
      obtain ⟨es, hes, hnot⟩ := hloop inPreds rfl
      obtain rfl := Except.ok.inj (h.edgeList_run.symm.trans hes)
      refine List.nodup_append.2 ⟨h.shown.inc_nodup _ _, h.shown.inc_nodup _ _, ?_⟩
      rintro e hup _ hdown rfl
      -- an edge in both lists has the node at both ends
      obtain ⟨d, hd, hsucc⟩ := h.consistent.body_of_mem_inc hup
      obtain ⟨d', hd', hpred⟩ := h.consistent.body_of_mem_inc hdown
      obtain rfl := Option.some.inj (hd.symm.trans hd')
      have hfind := View.find?_edgeAt hd
      refine hnot (V.edgeAt e) (h.consistent.edges.mem_handles.2 (by rw [hfind]; rfl)) ?_
      exact ⟨(h.edgeEnd_eq_iff hb hfind .up).2 hpred, (h.edgeEnd_eq_iff hb hfind .down).2 hsucc⟩

/-- The walk over both lists of a node meets the edges that it is an end of. -/
theorem Holds.mem_walkEdges_both (h : Holds g V) (hb : V.nodes.find? V.id node = some b)
    (inPreds : Bool) (edge : EdgeHandle) :
    edge ∈ V.walkEdges node.slot (.both inPreds) ↔
      g.containsEdge edge = true ∧ g.isEnd node edge = true := by
  rw [View.walkEdges_eq, List.mem_map]
  constructor
  · rintro ⟨e, he, rfl⟩
    obtain ⟨d, hd⟩ := h.consistent.exists_of_mem_walkSlots he
    have hfind := View.find?_edgeAt hd
    rw [h.containsEdge_eq, h.isEnd_eq hb hfind, hfind]
    simpa [View.walkSlots, View.edgeAt, or_comm] using he
  · rintro ⟨hlive, hend⟩
    obtain ⟨d, hd⟩ := h.exists_edge hlive
    rw [h.isEnd_eq hb hd] at hend
    exact ⟨edge.slot, by simpa [View.walkSlots, or_comm] using hend, View.edgeAt_slot hd⟩

end Graph

/-! ### Worlds -/

namespace World

/-- In all worlds, draining a list of a live node ends, deletes the edges of the list in their order
and leaves the rest alone. So does draining both lists of a node without self-loops, and these are
the edges that it is an end of. -/
theorem drains_walk (supply : IdSupply) (steps : List (Step N E)) :
    ∀ r ∈ ((start supply).run steps).graphs, ∀ node, r.graph.containsNode node = true →
      ∀ walk, (∀ inPreds, walk = .both inPreds → r.graph.Loopless node) →
        ∃ c es g', EdgeCursor.begin r.graph node walk = .ok c ∧
          r.graph.walkEdges node walk = .ok es ∧
          EdgeCursor.Drains (.atEnd walk) r.graph c es g' ∧
          (∀ es' g'', EdgeCursor.Drains (.atEnd walk) r.graph c es' g'' → es = es' ∧ g' = g'') ∧
          r.graph.EdgesRemoved g' es ∧
          ∀ inPreds, walk = .both inPreds → ∀ edge,
            edge ∈ es ↔ r.graph.containsEdge edge = true ∧ r.graph.isEnd node edge = true := by
  intro r hr node hlive walk hloop
  obtain ⟨V, h, -⟩ := registered_run supply steps r hr
  obtain ⟨b, hb⟩ := h.exists_node hlive
  have hnodup := h.nodup_walkSlots hb walk hloop
  obtain ⟨g', hdrains, h'⟩ := h.drains hb rfl hnodup
  have hremoved := h.edgesRemoved (fun _ he => h.consistent.exists_of_mem_walkSlots he) hnodup h'
  rw [← View.walkEdges_eq] at hdrains hremoved
  refine ⟨_, _, g', h.begin_run hb walk, h.walkEdges_run hb walk, hdrains,
    fun es' g'' h'' => hdrains.unique h'', hremoved, ?_⟩
  rintro inPreds rfl edge
  exact h.mem_walkEdges_both hb inPreds edge

/-- A world with two nodes. The first one has a self-loop, two parallel edges lead from it to the
second one, and one leads back. -/
def withLoopAndBack : World Nat Nat :=
  let node (uid : Nat) : NodeHandle := ⟨⟨0⟩, uid, ⟨uid, 0⟩⟩
  (start {}).run [.create ⟨1, 1⟩, .call 0 (.newNode 5), .call 0 (.newNode 6),
    .call 0 (.newEdge (node 0) (node 0) 7), .call 0 (.newEdge (node 0) (node 1) 8),
    .call 0 (.newEdge (node 1) (node 0) 9), .call 0 (.newEdge (node 0) (node 1) 10)]

/-- The outgoing edges of a node are deleted in a loop, its self-loop and two parallel edges among
them. -/
theorem drains_walk_withLoopAndBack : ∃ h : 0 < withLoopAndBack.graphs.length,
    let g := withLoopAndBack.graphs[0].graph
    let node (uid : Nat) : NodeHandle := ⟨⟨0⟩, uid, ⟨uid, 0⟩⟩
    let edge (uid : Nat) : EdgeHandle := ⟨⟨0⟩, uid, ⟨uid, 0⟩⟩
    g.Loopless (node 1) ∧
    (∃ g', EdgeCursor.Drains (.atEnd .outgoing) g ⟨some (edge 3), .outgoing⟩
      [edge 3, edge 1, edge 0] g' ∧ g.EdgesRemoved g' [edge 3, edge 1, edge 0]) ∧
    ∃ g', EdgeCursor.Drains (.atEnd (.both false)) g ⟨some (edge 3), .both true⟩
      [edge 3, edge 1, edge 2] g' ∧ g.EdgesRemoved g' [edge 3, edge 1, edge 2] := by
  have h : 0 < withLoopAndBack.graphs.length := by decide +kernel
  have hzero : withLoopAndBack.graphs[0].graph.containsNode ⟨⟨0⟩, 0, ⟨0, 0⟩⟩ = true := by
    decide +kernel +revert
  have hone : withLoopAndBack.graphs[0].graph.containsNode ⟨⟨0⟩, 1, ⟨1, 0⟩⟩ = true := by
    decide +kernel +revert
  have hedges : withLoopAndBack.graphs[0].graph.edgeList =
      .ok ([3, 2, 1, 0].map fun uid => ⟨⟨0⟩, uid, ⟨uid, 0⟩⟩) := by
    decide +kernel +revert
  have hbegin : EdgeCursor.begin withLoopAndBack.graphs[0].graph ⟨⟨0⟩, 0, ⟨0, 0⟩⟩ .outgoing =
      .ok ⟨some ⟨⟨0⟩, 3, ⟨3, 0⟩⟩, .outgoing⟩ := by
    decide +kernel +revert
  have hout : withLoopAndBack.graphs[0].graph.walkEdges ⟨⟨0⟩, 0, ⟨0, 0⟩⟩ .outgoing =
      .ok ([3, 1, 0].map fun uid => ⟨⟨0⟩, uid, ⟨uid, 0⟩⟩) := by
    decide +kernel +revert
  have hbegin' : EdgeCursor.begin withLoopAndBack.graphs[0].graph ⟨⟨0⟩, 1, ⟨1, 0⟩⟩ (.both false) =
      .ok ⟨some ⟨⟨0⟩, 3, ⟨3, 0⟩⟩, .both true⟩ := by
    decide +kernel +revert
  have hboth : withLoopAndBack.graphs[0].graph.walkEdges ⟨⟨0⟩, 1, ⟨1, 0⟩⟩ (.both false) =
      .ok ([3, 1, 2].map fun uid => ⟨⟨0⟩, uid, ⟨uid, 0⟩⟩) := by
    decide +kernel +revert
  have hloop : withLoopAndBack.graphs[0].graph.Loopless ⟨⟨0⟩, 1, ⟨1, 0⟩⟩ :=
    ⟨_, hedges, by decide +kernel +revert⟩
  obtain ⟨c, es, g', hc, hes, hdrains, -, hremoved, -⟩ :=
    drains_walk {} _ _ (List.getElem_mem h) _ hzero .outgoing fun inPreds heq => by cases heq
  obtain ⟨c', es', g'', hc', hes', hdrains', -, hremoved', -⟩ :=
    drains_walk {} _ _ (List.getElem_mem h) _ hone (.both false) fun _ _ => hloop
  obtain rfl := Except.ok.inj (hc.symm.trans hbegin)
  obtain rfl := Except.ok.inj (hes.symm.trans hout)
  obtain rfl := Except.ok.inj (hc'.symm.trans hbegin')
  obtain rfl := Except.ok.inj (hes'.symm.trans hboth)
  exact ⟨h, hloop, ⟨g', hdrains, hremoved⟩, g'', hdrains', hremoved'⟩

end World

end SlabGraph
