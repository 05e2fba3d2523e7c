import SlabGraph.Proofs.Tour

/-!
# Edges From One Node to Another

There are four ways to see how many edges lead from one node to another. The target may be counted
among the successors of the source, the source among the predecessors of the target, the payloads
that `Graph.edgesBetween` yields may be counted, or the edges in the list of all edges with these
ends. The first and the third go through a list of the source, the second through a list of the
target, and the fourth through neither. They agree, and the payloads are those of these edges in the
order of the successors (`Graph.CountsAlike`). Source and target may be one node. Then the edges are
its self-loops, and it is counted once for each of them among its successors and once among its
predecessors, so that it is twice among its neighbours.

What makes them agree is that the list of a node has the edges with the node at the other end as its
members, each once (`Graph.Holds.perm_edgesAt`). Counting the nodes that a reader yields is counting
the edges it reads them from.

## Main definitions

* `Graph.Joins`, `Graph.CountsAlike`.

## Main results

* `count_of_mapM`: counting what is read;
* `Graph.Holds.perm_filter`: the edges between two nodes, from the list of either;
* `World.counts_alike`.
-/

namespace SlabGraph

variable {N E : Type}

/-! ### Readers over lists -/

section

variable {ε α β : Type} {xs : List α}

/-- A value is yielded as often as it is read off a member. -/
theorem count_of_mapM [DecidableEq ε] [DecidableEq β] {f : α → Except ε β} {ys : List β}
    (h : xs.mapM f = .ok ys) (b : β) : ys.count b = xs.countP fun a => f a = .ok b := by
  calc ys.count b = (ys.map (Except.ok : β → Except ε β)).countP (· = .ok b) := by
        rw [List.countP_map, List.count_eq_countP]
        exact List.countP_congr fun c _ => by simp
    _ = xs.countP fun a => f a = .ok b := by
        rw [← mapM_eq_ok_iff.1 h, List.countP_map]
        rfl

/-- As much is yielded as there are members. -/
theorem length_of_mapM {f : α → Except ε β} {ys : List β} (h : xs.mapM f = .ok ys) :
    ys.length = xs.length := by
  simpa using (congrArg List.length (mapM_eq_ok_iff.1 h)).symm

/-- A filter that reads what it decides by is a filter. -/
theorem filterM_eq_ok {f : α → Except ε Bool} {p : α → Bool} (h : ∀ a ∈ xs, f a = .ok (p a)) :
    xs.filterM f = .ok (xs.filter p) := by
  have haux : ∀ acc, List.filterAuxM f xs acc = .ok ((xs.filter p).reverse ++ acc) := by
    induction xs with
    | nil => exact fun acc => rfl
    | cons a as ih =>
        intro acc
        have has := ih fun b hb => h b (List.mem_cons_of_mem a hb)
        rw [List.filterAuxM, h a List.mem_cons_self, ok_bind, has, List.filter_cons]
        cases p a <;> simp
  simp [List.filterM, haux, pure, Except.pure]

end

/-! ### Two nodes -/

namespace Graph

/-- An edge leads from one node to another. -/
def Joins (g : Graph N E) (src dst : NodeHandle) (edge : EdgeHandle) : Prop :=
  g.edgeEnd edge .up = .ok src ∧ g.edgeEnd edge .down = .ok dst

instance (g : Graph N E) (src dst : NodeHandle) : DecidablePred (g.Joins src dst) := fun edge =>
  inferInstanceAs (Decidable (g.edgeEnd edge .up = .ok src ∧ g.edgeEnd edge .down = .ok dst))

/-- All ways to see the edges from one node to another agree. All edges of the graph are `es`, and
`outs` are those that begin at the first node. -/
structure CountsAlike (g : Graph N E) (src dst : NodeHandle) (outs es : List EdgeHandle) :
    Prop where
  /-- All edges. -/
  edges : g.edgeList = .ok es
  /-- The edges that begin at the first node. -/
  outgoing : g.walkEdges src .outgoing = .ok outs
  /-- Among these the edges to the second node are the ones that all edges have. -/
  joining : (outs.filter (g.Joins src dst)).Perm (es.filter (g.Joins src dst))
  /-- The second node is as often a successor of the first, in the order of `outs`. -/
  succs : ∃ ns, g.succs src = .ok ns ∧ outs.mapM (g.edgeEnd · .down) = .ok ns ∧
    ns.count dst = es.countP (g.Joins src dst)
  /-- The first node is as often a predecessor of the second. -/
  preds : ∃ ns, g.preds dst = .ok ns ∧ ns.count src = es.countP (g.Joins src dst)
  /-- There are as many payloads, those of these edges in the order of `outs`. -/
  payloads : ∃ ds, g.edgesBetween src dst = .ok ds ∧
    (outs.filter (g.Joins src dst)).mapM g.edgeData = .ok ds ∧
    ds.length = es.countP (g.Joins src dst)
  /-- The second node is a neighbour of the first as often as it is a predecessor or a successor. -/
  adjacent : ∃ ns ps ss, g.adjacent src = .ok ns ∧ g.preds src = .ok ps ∧ g.succs src = .ok ss ∧
    ns.count dst = ps.count dst + ss.count dst

variable {g : Graph N E} {V : View N E} {node src dst : NodeHandle} {b c : Body Unit N}

/-- Edges that have a node at the `dir.rev` end are all in its `dir` list. -/
theorem Holds.perm_filter (h : Holds g V) (hb : V.nodes.find? V.id node = some b)
    (dir : Direction) {p : EdgeHandle → Prop} [DecidablePred p]
    (hp : ∀ edge, p edge → g.edgeEnd edge dir.rev = .ok node) :
    (((V.inc node.slot dir).map V.edgeAt).filter p).Perm
      ((V.edges.handles .edge V.id).filter p) := by
  obtain ⟨es, hes, hperm⟩ := h.perm_edgesAt hb dir
  obtain rfl : (V.edges.handles .edge V.id).filter (fun edge => g.edgeEnd edge dir.rev = .ok node) =
      es := by
    simpa [edgesAt, h.edgeList_run, pure, Except.pure] using hes
  refine (hperm.filter _).trans (List.Perm.of_eq ?_)
  rw [List.filter_filter]
  refine List.filter_congr fun edge _ => ?_
  by_cases hedge : p edge
  · simp [hedge, hp edge hedge]
  · simp [hedge]

/-- The nodes at the `dir` ends of the edges in the `dir` list of a node have a node among them as
often as there are edges between the two. -/
theorem Holds.ends_run (h : Holds g V) (hb : V.nodes.find? V.id node = some b) (dir : Direction)
    (other : NodeHandle) {p : EdgeHandle → Prop} [DecidablePred p]
    (hp : ∀ edge, p edge ↔ g.edgeEnd edge dir = .ok other ∧ g.edgeEnd edge dir.rev = .ok node) :
    ∃ ns, ((V.inc node.slot dir).map V.edgeAt).mapM (g.edgeEnd · dir) = .ok ns ∧
      ns.count other = (V.edges.handles .edge V.id).countP p ∧
      ((V.inc node.slot dir).map V.edgeAt).filter (fun edge => g.edgeEnd edge dir = .ok other) =
        ((V.inc node.slot dir).map V.edgeAt).filter p := by
  have hfilter : ((V.inc node.slot dir).map V.edgeAt).filter
      (fun edge => g.edgeEnd edge dir = .ok other) =
        ((V.inc node.slot dir).map V.edgeAt).filter p := by
    refine List.filter_congr fun edge hedge => decide_eq_decide.2 ?_
    obtain ⟨e, he, rfl⟩ := List.mem_map.1 hedge
    obtain ⟨d, hd, hend⟩ := h.consistent.body_of_mem_inc he
    rw [hp, h.edgeEnd_eq_iff hb (View.find?_edgeAt hd) dir.rev]
    exact (and_iff_left hend).symm
  obtain ⟨ns, hns⟩ := h.exists_ends node.slot dir dir
  refine ⟨ns, hns, ?_, hfilter⟩
  rw [count_of_mapM hns, List.countP_eq_length_filter, hfilter,
    (h.perm_filter hb dir fun edge hedge => ((hp edge).1 hedge).2).length_eq,
    List.countP_eq_length_filter]

/-- The successors of a node are the other ends of its outgoing edges. -/
theorem Holds.succs_eq (h : Holds g V) (hb : V.nodes.find? V.id node = some b) :
    g.succs node = ((V.inc node.slot .down).map V.edgeAt).mapM (g.edgeEnd · .down) := by
  simp only [succs, h.walkEdges_run hb, View.walkEdges, ok_bind]

/-- The predecessors of a node are the other ends of its incoming edges. -/
theorem Holds.preds_eq (h : Holds g V) (hb : V.nodes.find? V.id node = some b) :
    g.preds node = ((V.inc node.slot .up).map V.edgeAt).mapM (g.edgeEnd · .up) := by
  simp only [preds, h.walkEdges_run hb, View.walkEdges, ok_bind]

/-- The payloads of the edges from one node to another. -/
theorem Holds.edgesBetween_run (h : Holds g V) (hb : V.nodes.find? V.id src = some b)
    (dst : NodeHandle) : ∃ ds, g.edgesBetween src dst = .ok ds ∧
      (((V.inc src.slot .down).map V.edgeAt).filter fun edge =>
        g.edgeEnd edge .down = .ok dst).mapM g.edgeData = .ok ds := by
  have hfilter : ((V.inc src.slot .down).map V.edgeAt).filterM
      (fun edge => do return (← g.edgeEnd edge .down) == dst) =
      .ok (((V.inc src.slot .down).map V.edgeAt).filter fun edge =>
        g.edgeEnd edge .down = .ok dst) := by
    refine filterM_eq_ok fun edge hedge => ?_
    obtain ⟨e, he, rfl⟩ := List.mem_map.1 hedge
    obtain ⟨d, hd, -⟩ := h.consistent.body_of_mem_inc he
    obtain ⟨k, -, hrun⟩ := h.edgeEnd_run (View.find?_edgeAt hd) .down
    rw [hrun, ok_bind]
    refine congrArg Except.ok ((Bool.eq_iff_iff).2 ?_)
    rw [beq_iff_eq, decide_eq_true_iff, Except.ok.injEq]
  have hdata : ∃ ds, (((V.inc src.slot .down).map V.edgeAt).filter fun edge =>
      g.edgeEnd edge .down = .ok dst).mapM g.edgeData = .ok ds := by
    refine exists_mapM_eq_ok fun edge hedge => ?_
    obtain ⟨e, he, rfl⟩ := List.mem_map.1 (List.mem_of_mem_filter hedge)
    obtain ⟨d, hd, -⟩ := h.consistent.body_of_mem_inc he
    exact ⟨_, h.edgeData_run (View.find?_edgeAt hd)⟩
  obtain ⟨ds, hds⟩ := hdata
  refine ⟨ds, ?_, hds⟩
  simp only [edgesBetween, h.walkEdges_run hb, View.walkEdges, ok_bind]
  rw [hfilter, ok_bind, hds]

/-- In a graph that holds a view, all ways to count the edges between two nodes agree. -/
theorem Holds.countsAlike (h : Holds g V) (hb : V.nodes.find? V.id src = some b)
    (hc : V.nodes.find? V.id dst = some c) :
    g.CountsAlike src dst ((V.inc src.slot .down).map V.edgeAt) (V.edges.handles .edge V.id) := by
  have hperm := h.perm_filter hb .down (p := g.Joins src dst) fun edge hedge => hedge.1
  obtain ⟨ss, hss, hsuccs, hfilter⟩ := h.ends_run hb .down dst (p := g.Joins src dst)
    fun edge => and_comm
  obtain ⟨ps, hps, hpreds, -⟩ := h.ends_run hc .up src (p := g.Joins src dst) fun edge => Iff.rfl
  obtain ⟨ds, hbetween, hds⟩ := h.edgesBetween_run hb dst
  obtain ⟨ps', hps'⟩ := h.exists_ends src.slot .up .up
  have hsuccsRun : g.succs src = .ok ss := (h.succs_eq hb).trans hss
  have hpredsRun : g.preds src = .ok ps' := (h.preds_eq hb).trans hps'
  rw [hfilter] at hds
  refine ⟨h.edgeList_run, h.walkEdges_run hb .outgoing, hperm, ⟨ss, hsuccsRun, hss, hsuccs⟩,
    ⟨ps, (h.preds_eq hc).trans hps, hpreds⟩, ⟨ds, hbetween, hds, ?_⟩,
    ⟨ps' ++ ss, ps', ss, ?_, hpredsRun, hsuccsRun, List.count_append⟩⟩
  · rw [length_of_mapM hds, hperm.length_eq, List.countP_eq_length_filter]
  · rw [adjacent, hpredsRun, hsuccsRun]
    rfl

end Graph

/-! ### Worlds -/

namespace World

/-- In all worlds, all ways to see the edges from one live node to another agree. -/
theorem counts_alike (supply : IdSupply) (steps : List (Step N E)) :
    ∀ r ∈ ((start supply).run steps).graphs, ∀ src dst,
      r.graph.containsNode src = true → r.graph.containsNode dst = true →
        ∃ outs es, r.graph.CountsAlike src dst outs es := by
  intro r hr src dst hsrc hdst
  obtain ⟨V, h, -⟩ := registered_run supply steps r hr
  obtain ⟨b, hb⟩ := h.exists_node hsrc
  obtain ⟨c, hc⟩ := h.exists_node hdst
  exact ⟨_, _, h.countsAlike hb hc⟩

/-- A world with two parallel edges from the first node to the second, one of which was retargeted
to it, an edge back, and two self-loops. -/
def withParallelsAndLoops : World Nat Nat :=
  let node (uid : Nat) : NodeHandle := ⟨⟨0⟩, uid, ⟨uid, 0⟩⟩
  (start {}).run [.create ⟨1, 1⟩, .call 0 (.newNode 5), .call 0 (.newNode 6),
    .call 0 (.newEdge (node 0) (node 0) 7), .call 0 (.newEdge (node 0) (node 1) 8),
    .call 0 (.newEdge (node 1) (node 0) 9), .call 0 (.newEdge (node 0) (node 0) 10),
    .call 0 (.newEdge (node 1) (node 1) 11), .call 0 (.setEnd ⟨⟨0⟩, 4, ⟨4, 0⟩⟩ .up (node 0))]

/-- The edges from one node to another are counted in a graph with parallel edges and loops, after
one of them was retargeted. -/
theorem counts_alike_withParallelsAndLoops : ∃ h : 0 < withParallelsAndLoops.graphs.length,
    let g := withParallelsAndLoops.graphs[0].graph
    let node (uid : Nat) : NodeHandle := ⟨⟨0⟩, uid, ⟨uid, 0⟩⟩
    let edge (uid : Nat) : EdgeHandle := ⟨⟨0⟩, uid, ⟨uid, 0⟩⟩
    g.edgesBetween (node 0) (node 1) = .ok [11, 8] ∧
    g.adjacent (node 0) = .ok [node 0, node 1, node 0, node 1, node 0, node 1, node 0] ∧
    g.CountsAlike (node 0) (node 1) [edge 4, edge 3, edge 1, edge 0]
      [edge 4, edge 3, edge 2, edge 1, edge 0] ∧
    g.CountsAlike (node 0) (node 0) [edge 4, edge 3, edge 1, edge 0]
      [edge 4, edge 3, edge 2, edge 1, edge 0] := by
  have h : 0 < withParallelsAndLoops.graphs.length := by decide +kernel
  refine ⟨h, by decide +kernel +revert, by decide +kernel +revert, ?_⟩
  have hzero : withParallelsAndLoops.graphs[0].graph.containsNode ⟨⟨0⟩, 0, ⟨0, 0⟩⟩ = true := by
    decide +kernel +revert
  have hone : withParallelsAndLoops.graphs[0].graph.containsNode ⟨⟨0⟩, 1, ⟨1, 0⟩⟩ = true := by
    decide +kernel +revert
  have hedges : withParallelsAndLoops.graphs[0].graph.edgeList =
      .ok ([4, 3, 2, 1, 0].map fun uid => ⟨⟨0⟩, uid, ⟨uid, 0⟩⟩) := by
    decide +kernel +revert
  have hout : withParallelsAndLoops.graphs[0].graph.walkEdges ⟨⟨0⟩, 0, ⟨0, 0⟩⟩ .outgoing =
      .ok ([4, 3, 1, 0].map fun uid => ⟨⟨0⟩, uid, ⟨uid, 0⟩⟩) := by
    decide +kernel +revert
  obtain ⟨outs, es, hother⟩ := counts_alike {} _ _ (List.getElem_mem h) _ _ hzero hone
  obtain ⟨outs', es', hloop⟩ := counts_alike {} _ _ (List.getElem_mem h) _ _ hzero hzero
  obtain rfl := Except.ok.inj (hother.edges.symm.trans hedges)
  obtain rfl := Except.ok.inj (hother.outgoing.symm.trans hout)
  obtain rfl := Except.ok.inj (hloop.edges.symm.trans hedges)
  obtain rfl := Except.ok.inj (hloop.outgoing.symm.trans hout)
  exact ⟨hother, hloop⟩

end World

end SlabGraph
