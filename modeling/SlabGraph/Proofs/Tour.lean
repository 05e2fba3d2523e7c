import SlabGraph.Proofs.Frame
import SlabGraph.Proofs.Order

/-!
# Tours of a Node

A loop that takes a cursor to the first edge of a node and advances it until it is the end cursor
(`EdgeCursor.Passes`) is a tour of the edges of the node. With the walk over both lists it stops at
the incoming edges in their order and then at the outgoing ones in theirs, so that it takes as many
steps as the node has ends of edges, and a self-loop is met in each half. No cursor is met twice:
the two visits of a self-loop differ in the half. The nodes on the other side are the neighbours of
the node, and an iterator that takes over from a cursor on the way, or from the one at the end,
yields what is left of the tour (`Graph.IsTour`).

All of this is read off the list of the cursors of a walk, of which each leads to the next
(`EdgeCursor.Leads`).

## Main definitions

* `EdgeCursor.Passes`, the loop;
* `Graph.edgesAt`, the edges with a node at an end, and `Graph.IsTour`.

## Main results

* `EdgeCursor.Leads.passes`, `EdgeCursor.Leads.iter_run`: loops and iterators over cursors each of
  which leads to the next;
* `World.edges_toured`.
-/

namespace SlabGraph

variable {N E : Type}

/-! ### Loops over cursors each of which leads to the next -/

namespace EdgeCursor

/-- The loop that stops at a cursor and advances it, until it is `stop`: it begins with a cursor
and stops at some cursors. -/
inductive Passes (g : Graph N E) (stop : EdgeCursor) : EdgeCursor → List EdgeCursor → Prop
  | done : Passes g stop stop []
  | step {c c' : EdgeCursor} {cs : List EdgeCursor} : c ≠ stop → c.advance g = .ok c' →
      Passes g stop c' cs → Passes g stop c (c :: cs)

variable {g : Graph N E} {stop : EdgeCursor} {cs : List EdgeCursor}

/-- The loop stops at all of them. -/
theorem Leads.passes (h : Leads g stop cs) : Passes g stop (cs.head?.getD stop) cs := by
  induction cs with
  | nil => exact .done
  | cons c cs ih =>
      exact .step (h.ne_stop List.mem_cons_self) (h.next c cs List.suffix_rfl) (ih h.tail)

/-- The iterator yields the edges of the first ones. -/
theorem Leads.take_run (h : Leads g stop cs) (k : Nat) :
    (cs.head?.getD stop).take g k =
      .ok ((cs.filterMap (·.edge?)).take k, cs[k]?.getD stop) := by
  induction k generalizing cs with
  | zero => simp [EdgeCursor.take, List.head?_eq_getElem?]
  | succ k ih =>
      cases cs with
      | nil => simp [EdgeCursor.take, next?, h.atEnd, pure, Except.pure]
      | cons c cs =>
          obtain ⟨e, he⟩ := h.edge c List.mem_cons_self
          have hnext := h.next c cs List.suffix_rfl
          simp [EdgeCursor.take, next?, he, hnext, ih h.tail, pure, Except.pure]

/-- From each of them on, the last one included, the iterator yields the edges that are left. -/
theorem Leads.iter_run (h : Leads g stop cs) (hfuel : cs.length ≤ 2 * g.edges.count)
    {es : List EdgeHandle} (hes : cs.map (·.edge?) = es.map some) {i : Nat} {c : EdgeCursor}
    (hc : (cs ++ [stop])[i]? = some c) :
    c.edges g = .ok (es.drop i) ∧
      ∀ k, c.take g k = .ok ((es.drop i).take k, cs[i + k]?.getD stop) := by
  have hrest : Leads g stop (cs.drop i) := h.of_suffix (List.drop_suffix i cs)
  have hhead : c = (cs.drop i).head?.getD stop := by
    rw [List.head?_drop]
    by_cases hi : i < cs.length
    · rw [List.getElem?_append_left hi] at hc
      rw [hc, Option.getD_some]
    · have hlen := (List.getElem?_eq_some_iff.1 hc).1
      obtain rfl : i = cs.length := by simp at hlen; omega
      simpa using hc.symm
  have hleft : (cs.drop i).filterMap (·.edge?) = es.drop i := by
    calc (cs.drop i).filterMap (·.edge?) = ((cs.map (·.edge?)).drop i).filterMap id := by
          rw [← List.map_drop, List.filterMap_map]
          rfl
      _ = ((es.drop i).map some).filterMap id := by rw [hes, List.map_drop]
      _ = es.drop i := by simp [List.filterMap_map]
  have hlength : (cs.drop i).length ≤ 2 * g.edges.count + 1 := by
    rw [List.length_drop]
    omega
  rw [hhead, ← hleft]
  refine ⟨?_, fun k => ?_⟩
  · simp only [edges, hrest.positions_run hlength, ok_bind]
    rfl
  · rw [hrest.take_run, List.getElem?_drop]

end EdgeCursor

/-! ### The tour -/

namespace Graph

/-- The edges whose `dir` end a node is, in the order of all edges. -/
def edgesAt (g : Graph N E) (dir : Direction) (node : NodeHandle) :
    Except Fault (List EdgeHandle) := do
  return (← g.edgeList).filter fun edge => g.edgeEnd edge dir = .ok node

/-- Some cursors are those of a tour of a node, whose incoming edges are `ins` and whose outgoing
edges are `outs`. -/
structure IsTour (g : Graph N E) (node : NodeHandle) (ins outs : List EdgeHandle)
    (cs : List EdgeCursor) : Prop where
  /-- The incoming edges, in order. -/
  incoming : g.walkEdges node .incoming = .ok ins
  /-- The outgoing edges, in order. -/
  outgoing : g.walkEdges node .outgoing = .ok outs
  /-- The loop from the first edge to the end stops at these cursors. -/
  passes : ∀ inPreds, ∃ c, EdgeCursor.begin g node (.both inPreds) = .ok c ∧
    EdgeCursor.Passes g (.atEnd (.both inPreds)) c cs
  /-- It stops at the incoming edges and then at the outgoing ones. -/
  visits : cs = (ins.map fun edge => ⟨some edge, .both true⟩) ++
    outs.map fun edge => ⟨some edge, .both false⟩
  /-- It takes a step for each edge that ends at the node and for each that begins there. -/
  degrees : ∃ es fs, g.edgesAt .down node = .ok es ∧ g.edgesAt .up node = .ok fs ∧
    ins.Perm es ∧ outs.Perm fs ∧ cs.length = es.length + fs.length
  /-- No two of the cursors are equal, and none is the one at the end. -/
  distinct : (cs ++ [EdgeCursor.atEnd (.both false)]).Nodup
  /-- The nodes on the other side are the neighbours. -/
  neighbours : ∃ ns, cs.mapM (·.neighbour g) = .ok ns ∧ g.adjacent node = .ok ns
  /-- From each cursor on, the one at the end included, an iterator yields the edges that are left,
  and has then moved on by as many cursors. -/
  iter : ∀ (i : Nat) (c : EdgeCursor), (cs ++ [.atEnd (.both false)])[i]? = some c →
    c.edges g = .ok ((ins ++ outs).drop i) ∧
    ∀ k, c.take g k =
      .ok (((ins ++ outs).drop i).take k, cs[i + k]?.getD (.atEnd (.both false)))

variable {g : Graph N E} {V : View N E} {node : NodeHandle} {b : Body Unit N}

/-- The members of a list of a node are the edges with the node at the other end. -/
theorem Holds.perm_edgesAt (h : Holds g V) (hb : V.nodes.find? V.id node = some b)
    (dir : Direction) : ∃ es, g.edgesAt dir.rev node = .ok es ∧
      ((V.inc node.slot dir).map V.edgeAt).Perm es := by
  have hedges : g.edgesAt dir.rev node = .ok ((V.edges.handles .edge V.id).filter fun x =>
      g.edgeEnd x dir.rev = .ok node) := by
    simp [edgesAt, h.edgeList_run, pure, Except.pure]
  refine ⟨_, hedges, ?_⟩
  refine (List.perm_ext_iff_of_nodup ?_ ?_).2 fun x => ?_
  · exact (h.shown.inc_nodup node.slot dir).map View.edgeAt_injective
  · exact (h.consistent.edges.nodup_handles .edge V.id).filter _
  · rw [List.mem_map, List.mem_filter, h.consistent.edges.mem_handles, decide_eq_true_iff]
    constructor
    · rintro ⟨e, he, rfl⟩
      obtain ⟨d, hd, hend⟩ := h.consistent.body_of_mem_inc he
      have hfind := View.find?_edgeAt hd
      exact ⟨by simp [hfind], (h.edgeEnd_eq_iff hb hfind dir.rev).2 hend⟩
    · rintro ⟨hlive, hend⟩
      obtain ⟨d, hd⟩ := Option.isSome_iff_exists.1 hlive
      have hbody := (Population.find?_eq_some_iff.1 hd).1
      exact ⟨x.slot, (h.consistent.inc_iff _ dir _).2
        ⟨d, hbody, (h.edgeEnd_eq_iff hb hd dir.rev).1 hend⟩, View.edgeAt_slot hd⟩

/-- The cursors of a tour differ, also those that stand at one self-loop. -/
theorem Holds.nodup_cursors (h : Holds g V) (n : Ptr) :
    (V.cursors n (.both false)).Nodup := by
  have hinj : ∀ walk, Function.Injective (V.cursorAt walk) := fun walk e f heq =>
    View.edgeAt_injective (Option.some.inj (congrArg EdgeCursor.edge? heq))
  refine List.nodup_append.2 ⟨(h.shown.inc_nodup n .up).map (hinj _),
    (h.shown.inc_nodup n .down).map (hinj _), fun c hc d hd heq => ?_⟩
  -- the two visits of a self-loop differ in the half of the walk
  obtain ⟨e, -, rfl⟩ := List.mem_map.1 hc
  obtain ⟨f, -, rfl⟩ := List.mem_map.1 hd
  cases congrArg EdgeCursor.walk heq

/-- The nodes on the other side, list by list. -/
theorem Holds.exists_ends (h : Holds g V) (n : Ptr) (dir dir' : Direction) :
    ∃ ns, ((V.inc n dir).map V.edgeAt).mapM (g.edgeEnd · dir') = .ok ns := by
  refine exists_mapM_eq_ok fun x hx => ?_
  obtain ⟨e, he, rfl⟩ := List.mem_map.1 hx
  obtain ⟨d, hd, -⟩ := h.consistent.body_of_mem_inc he
  obtain ⟨c, -, hrun⟩ := h.edgeEnd_run (View.find?_edgeAt hd) dir'
  exact ⟨_, hrun⟩

/-- The neighbours that the cursors of a tour see are the adjacent nodes, in the same order. -/
theorem Holds.neighbours_run (h : Holds g V) (hb : V.nodes.find? V.id node = some b) :
    ∃ ns, (V.cursors node.slot (.both false)).mapM (·.neighbour g) = .ok ns ∧
      g.adjacent node = .ok ns := by
  obtain ⟨ps, hps⟩ := h.exists_ends node.slot .up .up
  obtain ⟨ss, hss⟩ := h.exists_ends node.slot .down .down
  refine ⟨ps ++ ss, ?_, ?_⟩
  · have hup : ((V.inc node.slot .up).map (V.cursorAt (.both true))).mapM (·.neighbour g) =
        .ok ps := by
      rw [← hps, List.mapM_map, List.mapM_map]
      rfl
    have hdown : ((V.inc node.slot .down).map (V.cursorAt (.both false))).mapM (·.neighbour g) =
        .ok ss := by
      rw [← hss, List.mapM_map, List.mapM_map]
      rfl
    rw [View.cursors, List.mapM_append, hup, hdown]
    rfl
  · simp only [adjacent, preds, succs, h.walkEdges_run hb, View.walkEdges, ok_bind, hps, hss]
    rfl

/-- In a graph that holds a view, the walk over both lists of a node is a tour. -/
theorem Holds.isTour (h : Holds g V) (hb : V.nodes.find? V.id node = some b) :
    g.IsTour node ((V.inc node.slot .up).map V.edgeAt) ((V.inc node.slot .down).map V.edgeAt)
      (V.cursors node.slot (.both false)) where
  incoming := h.walkEdges_run hb .incoming
  outgoing := h.walkEdges_run hb .outgoing
  passes inPreds := ⟨_, h.begin_run hb (.both inPreds), (h.leads hb (.both inPreds)).passes⟩
  visits := by simp only [View.cursors, List.map_map]; rfl
  degrees := by
    obtain ⟨es, hes, hins⟩ := h.perm_edgesAt hb .up
    obtain ⟨fs, hfs, houts⟩ := h.perm_edgesAt hb .down
    refine ⟨es, fs, hes, hfs, hins, houts, ?_⟩
    rw [← hins.length_eq, ← houts.length_eq]
    simp [View.cursors]
  distinct := by
    refine List.nodup_append.2 ⟨h.nodup_cursors node.slot, List.nodup_singleton _, ?_⟩
    intro c hc d hd
    rw [List.mem_singleton.1 hd]
    exact (h.leads hb (.both false)).ne_stop hc
  neighbours := h.neighbours_run hb
  iter i c hc := by
    refine (h.leads hb (.both false)).iter_run (h.length_cursors_le _ _) ?_ hc
    rw [View.cursors, List.map_append, List.map_append, List.map_map, List.map_map, List.map_map,
      List.map_map]
    rfl

end Graph

/-! ### Worlds -/

namespace World

/-- In all worlds, the walk over both lists of a live node is a tour of the node. -/
theorem edges_toured (supply : IdSupply) (steps : List (Step N E)) :
    ∀ r ∈ ((start supply).run steps).graphs, ∀ node, r.graph.containsNode node = true →
      ∃ ins outs cs, r.graph.IsTour node ins outs cs := by
  intro r hr node hlive
  obtain ⟨V, h, -⟩ := registered_run supply steps r hr
  obtain ⟨b, hb⟩ := h.exists_node hlive
  exact ⟨_, _, _, h.isTour hb⟩

/-- A world with a node whose last incoming edge is a self-loop, which is its first outgoing edge
as well, and which has two parallel incoming edges. -/
def withLoopBetween : World Nat Nat :=
  let node (uid : Nat) : NodeHandle := ⟨⟨0⟩, uid, ⟨uid, 0⟩⟩
  (start {}).run [.create ⟨1, 1⟩, .call 0 (.newNode 5), .call 0 (.newNode 6),
    .call 0 (.newEdge (node 0) (node 0) 7), .call 0 (.newEdge (node 0) (node 1) 8),
    .call 0 (.newEdge (node 1) (node 0) 9), .call 0 (.newEdge (node 1) (node 0) 10),
    .call 0 (.setEnd ⟨⟨0⟩, 0, ⟨0, 0⟩⟩ .up (node 0))]

/-- The tour of a node with a self-loop between other edges meets the self-loop twice. -/
theorem edges_toured_withLoopBetween : ∃ h : 0 < withLoopBetween.graphs.length,
    let g := withLoopBetween.graphs[0].graph
    let node : NodeHandle := ⟨⟨0⟩, 0, ⟨0, 0⟩⟩
    let edge (uid : Nat) : EdgeHandle := ⟨⟨0⟩, uid, ⟨uid, 0⟩⟩
    g.containsNode node = true ∧
    g.IsTour node [edge 3, edge 2, edge 0] [edge 0, edge 1]
      [⟨some (edge 3), .both true⟩, ⟨some (edge 2), .both true⟩, ⟨some (edge 0), .both true⟩,
        ⟨some (edge 0), .both false⟩, ⟨some (edge 1), .both false⟩] := by
  have h : 0 < withLoopBetween.graphs.length := by decide +kernel
  have hlive : withLoopBetween.graphs[0].graph.containsNode ⟨⟨0⟩, 0, ⟨0, 0⟩⟩ = true := by
    decide +kernel +revert
  have hin : withLoopBetween.graphs[0].graph.walkEdges ⟨⟨0⟩, 0, ⟨0, 0⟩⟩ .incoming =
      .ok [⟨⟨0⟩, 3, ⟨3, 0⟩⟩, ⟨⟨0⟩, 2, ⟨2, 0⟩⟩, ⟨⟨0⟩, 0, ⟨0, 0⟩⟩] := by
    decide +kernel +revert
  have hout : withLoopBetween.graphs[0].graph.walkEdges ⟨⟨0⟩, 0, ⟨0, 0⟩⟩ .outgoing =
      .ok [⟨⟨0⟩, 0, ⟨0, 0⟩⟩, ⟨⟨0⟩, 1, ⟨1, 0⟩⟩] := by
    decide +kernel +revert
  obtain ⟨ins, outs, cs, htour⟩ := edges_toured {} _ _ (List.getElem_mem h) _ hlive
  obtain rfl := Except.ok.inj (htour.incoming.symm.trans hin)
  obtain rfl := Except.ok.inj (htour.outgoing.symm.trans hout)
  obtain rfl := htour.visits
  exact ⟨h, hlive, htour⟩

end World

end SlabGraph
