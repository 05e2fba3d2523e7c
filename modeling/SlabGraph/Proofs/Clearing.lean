import SlabGraph.Proofs.Placement

/-!
# Clearing

Clearing a graph and deleting all its nodes one after another, in any order, come to the same
(`World.clear_indistinguishable`), although the first gives all chunks back at once and the second
unlinks edge by edge and keeps them.

Either way no node is left, so no edge is, since the ends of an edge are nodes. The ids, the ledgers
and the number of the graph are as before (`View.Emptied`). Two views without members are alike
wherever they would put their members, and this is all that it takes to be indistinguishable. That
the handles of before stay dead is a matter of one graph: no handle is issued twice.

## Main definitions

* `Recorded.deleteAll`, `View.Emptied`, `Recorded.Emptied`, `Recorded.EmptiedTo`.

## Main results

* `Recorded.clear_empties`, `Recorded.deleteAll_empties`;
* `World.clear_indistinguishable`.
-/

namespace SlabGraph

variable {N E : Type}

/-! ### Handles of before -/

namespace History

/-- What was issued over a longer history is what was issued in its two parts. -/
theorem issued_append (later past : History N E) (kind : EntityKind) :
    (later ++ past).issued kind = later.issued kind ++ past.issued kind := by
  cases kind with
  | node => exact nodesIssued_append later past
  | edge => exact edgesIssued_append later past

end History

namespace Recorded

variable {r s : Recorded N E}

/-- No handle is issued twice. -/
theorem Registered.nodup_issued (h : r.Registered) (kind : EntityKind) :
    (r.history.issued kind).Nodup := by
  obtain ⟨V, hV, hreg⟩ := h
  cases kind with
  | node => exact (faithful hV hreg).nodeIds.of_map _
  | edge => exact (faithful hV hreg).edgeIds.of_map _

/-- A request may make the history longer. -/
theorem Registered.extends_after (h : r.Registered) (q : Request N E) :
    r.Extends (q.after r) := by
  obtain ⟨V, hV, -⟩ := h
  cases q with
  | call c => exact (c.rename r.history.placed).extends hV
  | raw c => exact (c.rename r.history.placed).extends hV
  | ask q => exact .refl r

/-- Any number of requests keeps a graph registered, and may make its history longer. -/
theorem Registered.afterAll (h : r.Registered) (qs : List (Request N E)) :
    (r.afterAll qs).Registered ∧ r.Extends (r.afterAll qs) := by
  induction qs generalizing r with
  | nil => exact ⟨h, .refl r⟩
  | cons q qs ih =>
      obtain ⟨hreg, hextends⟩ := ih (h.after q)
      exact ⟨hreg, (h.extends_after q).trans hextends⟩

/-- An entity that is gone stays gone. -/
theorem Registered.stays_gone (h : r.Registered) {kind : EntityKind} {x : Handle kind}
    (hx : x ∈ r.history.issued kind) (hgone : r.graph.contains x = false)
    (qs : List (Request N E)) : (r.afterAll qs).graph.contains x = false := by
  obtain ⟨hreg, -, deeds, hhistory⟩ := h.afterAll qs
  have hfresh : x ∉ History.issued deeds kind := by
    have hnodup := hreg.nodup_issued kind
    rw [hhistory, History.issued_append] at hnodup
    exact fun hin => List.disjoint_of_nodup_append hnodup hin hx
  obtain ⟨V, hV, hagree⟩ := h
  obtain ⟨V', hV', hagree'⟩ := hreg
  have hfaithful := faithful hV hagree
  have hfaithful' := faithful hV' hagree'
  cases kind with
  | node =>
      have hdead := mt (hfaithful.containsNode x).2 (Bool.eq_false_iff.1 hgone)
      refine Bool.eq_false_iff.2 (mt (hfaithful'.containsNode x).1 ?_)
      rw [hhistory]
      exact History.not_nodeLive_append hdead hfresh
  | edge =>
      have hdead := mt (hfaithful.containsEdge x).2 (Bool.eq_false_iff.1 hgone)
      refine Bool.eq_false_iff.2 (mt (hfaithful'.containsEdge x).1 ?_)
      rw [hhistory]
      exact History.not_edgeLive_append hdead hfresh

end Recorded

/-! ### Views that were emptied -/

namespace View

variable {V V' W W' : View N E}

/-- All nodes and edges have left a view, and nothing else has. -/
structure Emptied (V W : View N E) : Prop where
  /-- The number of the graph. -/
  id : W.id = V.id
  /-- The nodes. -/
  nodes : W.nodes.members = []
  /-- The edges. -/
  edges : W.edges.members = []
  /-- The id of the node to come. -/
  nextNode : W.nodes.next = V.nodes.next
  /-- The id of the edge to come. -/
  nextEdge : W.edges.next = V.edges.next
  /-- The ledger of the markers. -/
  markers : W.markers = V.markers
  /-- The ledger of the numerations. -/
  nums : W.nums = V.nums

/-- Without nodes there are no edges. -/
theorem Consistent.edges_nil (hc : V.Consistent) (hnodes : V.nodes.members = []) :
    V.edges.members = [] := by
  refine List.eq_nil_iff_forall_not_mem.2 fun e he => ?_
  obtain ⟨b, hb⟩ := Option.isSome_iff_exists.1 ((hc.edges.mem_iff e).1 he)
  have hend := (hc.nodes.mem_iff _).2 (hc.ends e b hb .up)
  rw [hnodes] at hend
  cases hend

/-- A view without nodes is what is left when all nodes and edges have left it. -/
theorem Consistent.emptied_of_nil (hc : V.Consistent) (hnodes : V.nodes.members = []) :
    V.Emptied V :=
  ⟨rfl, hnodes, hc.edges_nil hnodes, rfl, rfl, rfl, rfl⟩

/-- Clearing makes all nodes and edges leave. -/
theorem emptied_clear (V : View N E) : V.Emptied V.clear where
  id := rfl
  nodes := List.filter_false _
  edges := List.filter_false _
  nextNode := rfl
  nextEdge := rfl
  markers := rfl
  nums := rfl

/-- A view without a node may be emptied instead. -/
theorem Emptied.of_removeNode {n : Ptr} (h : (V.removeNode n).Emptied W) : V.Emptied W :=
  ⟨h.id, h.nodes, h.edges, h.nextNode, h.nextEdge, h.markers, h.nums⟩

/-- Two views that were emptied are alike. -/
theorem Emptied.relocated (h : V.Emptied W) (h' : V.Emptied W') (hc : W.Consistent)
    (ρ : Relocation) : W.RelocatedBy ρ W' :=
  .of_members_nil hc (h'.id.trans h.id.symm) h.nodes h'.nodes (h'.nextNode.trans h.nextNode.symm)
    h.edges h'.edges (h'.nextEdge.trans h.nextEdge.symm) (h'.markers.trans h.markers.symm)
    (h'.nums.trans h.nums.symm)

end View

/-! ### Graphs that were emptied -/

namespace Recorded

variable {r s : Recorded N E} {V W : View N E}

/-- Deletes nodes one after another. -/
def deleteAll (order : List NodeHandle) : Action (Recorded N E) Unit :=
  order.forM fun node => do let _ ← deleteNode node

/-- All nodes and edges have left a graph, for good, and nothing else has. -/
structure Emptied (r s : Recorded N E) : Prop where
  /-- There are no nodes. -/
  nodes : s.graph.nodeList = .ok []
  /-- There are no edges. -/
  edges : s.graph.edgeList = .ok []
  /-- Nodes are counted. -/
  numNodes : s.graph.nodes.count = 0
  /-- Edges are counted. -/
  numEdges : s.graph.edges.count = 0
  /-- The id of the node to come is kept. -/
  nextNode : s.graph.nodes.nextUid = r.graph.nodes.nextUid
  /-- The id of the edge to come is kept. -/
  nextEdge : s.graph.edges.nextUid = r.graph.edges.nextUid
  /-- The markers in use are kept. -/
  markers : s.graph.markers = r.graph.markers
  /-- The numerations in use are kept. -/
  nums : s.graph.nums = r.graph.nums
  /-- The handles that were issued before are dead, whatever is asked of the graph from now on. -/
  dead : ∀ kind, ∀ x ∈ r.history.issued kind, ∀ qs : List (Request N E),
    (s.afterAll qs).graph.contains x = false

/-- A graph and its history after all nodes and edges have left the view of the graph. -/
structure EmptiedTo (r : Recorded N E) (V : View N E) (s : Recorded N E) (W : View N E) : Prop where
  /-- The graph. -/
  holds : Graph.Holds s.graph W
  /-- The history. -/
  registered : W.Registered s.history
  /-- No handles were issued. -/
  issued : ∀ kind, s.history.issued kind = r.history.issued kind
  /-- The view. -/
  emptied : V.Emptied W

/-- A graph whose view was emptied was emptied. -/
theorem EmptiedTo.graph (h' : r.EmptiedTo V s W) (h : Graph.Holds r.graph V) : r.Emptied s where
  nodes := by rw [h'.holds.nodeList_run, Population.handles, h'.emptied.nodes, List.map_nil]
  edges := by rw [h'.holds.edgeList_run, Population.handles, h'.emptied.edges, List.map_nil]
  numNodes := by rw [h'.holds.shown.nodes.count, h'.emptied.nodes, List.length_nil]
  numEdges := by rw [h'.holds.shown.edges.count, h'.emptied.edges, List.length_nil]
  nextNode := by rw [h'.holds.shown.nodes.next, h.shown.nodes.next, h'.emptied.nextNode]
  nextEdge := by rw [h'.holds.shown.edges.next, h.shown.edges.next, h'.emptied.nextEdge]
  markers := by rw [← h'.holds.shown.markers, ← h.shown.markers, h'.emptied.markers]
  nums := by rw [← h'.holds.shown.nums, ← h.shown.nums, h'.emptied.nums]
  dead kind x hx qs := by
    refine Registered.stays_gone ⟨W, h'.holds, h'.registered⟩ (h'.issued kind ▸ hx) ?_ qs
    rw [h'.holds.contains_eq, Bool.eq_false_iff]
    intro hlive
    cases kind with
    | node =>
        have hmem := h'.holds.consistent.nodes.mem_handles.2 (Option.isSome_map.symm.trans hlive)
        rw [Population.handles, h'.emptied.nodes] at hmem
        cases hmem
    | edge =>
        have hmem := h'.holds.consistent.edges.mem_handles.2 (Option.isSome_map.symm.trans hlive)
        rw [Population.handles, h'.emptied.edges] at hmem
        cases hmem

/-- Two ways of emptying a graph make no difference. -/
theorem EmptiedTo.indistinguishable {s' : Recorded N E} {W' : View N E} (h : r.EmptiedTo V s W)
    (h' : r.EmptiedTo V s' W') : s.Indistinguishable s' := by
  have hrelocated := h.emptied.relocated h'.emptied h.holds.consistent ⟨fun n => n, fun e => e⟩
  exact Alike.indistinguishable ⟨⟨_, W, W', h.holds, h'.holds, hrelocated⟩,
    ⟨W, h.holds, h.registered⟩, ⟨W', h'.holds, h'.registered⟩⟩

/-- Clearing empties a graph. -/
theorem clear_empties (h : Graph.Holds r.graph V) (hreg : V.Registered r.history) :
    ∃ s W, clear r = .ok () s ∧ r.EmptiedTo V s W := by
  obtain ⟨g, hrun, h'⟩ := h.clear_run
  refine ⟨⟨g, .clear :: r.history⟩, V.clear, by simp [clear, act, hrun],
    ⟨h', hreg.clear, fun kind => ?_, V.emptied_clear⟩⟩
  cases kind <;> rfl

/-- Deleting all nodes one after another empties a graph. -/
theorem deleteAll_empties {order : List NodeHandle} (h : Graph.Holds r.graph V)
    (hreg : V.Registered r.history) (horder : order.Perm (V.nodes.handles .node V.id)) :
    ∃ s W, deleteAll order r = .ok () s ∧ r.EmptiedTo V s W := by
  induction order generalizing r V with
  | nil =>
      have hnodes : V.nodes.members = [] := List.map_eq_nil_iff.1 horder.symm.eq_nil
      exact ⟨r, V, rfl, ⟨h, hreg, fun _ => rfl, h.consistent.emptied_of_nil hnodes⟩⟩
  | cons x order ih =>
      have hnodup : (x :: order).Nodup :=
        horder.nodup_iff.2 (h.consistent.nodes.nodup_handles .node V.id)
      have hfound : ∀ y ∈ x :: order, ∃ b, V.nodes.find? V.id y = some b := fun y hy =>
        Option.isSome_iff_exists.1 (h.consistent.nodes.mem_handles.1 (horder.mem_iff.1 hy))
      obtain ⟨b, hb⟩ := hfound x List.mem_cons_self
      obtain ⟨g, hrun, h'⟩ := h.deleteNode_run hb
      -- the nodes that are left are those that are still to be deleted
      have hleft : order.Perm ((V.removeNode x.slot).nodes.handles .node V.id) := by
        have hfilter := horder.filter fun y => y.slot != x.slot
        rw [List.filter_cons_of_neg (by simp), List.filter_eq_self.2 fun y hy => ?_] at hfilter
        · rwa [View.removeNode, Population.handles_keep]
        · obtain ⟨c, hc⟩ := hfound y (List.mem_cons_of_mem x hy)
          refine bne_iff_ne.2 fun heq => ?_
          obtain rfl := Population.eq_of_find? hc hb heq
          exact (List.nodup_cons.1 hnodup).1 hy
      obtain ⟨s, W, hrest, hs⟩ :=
        ih (r := ⟨g, .removeNode x :: r.history⟩) h' (hreg.removeNode h.consistent hb) hleft
      refine ⟨s, W, ?_, ⟨hs.holds, hs.registered, fun kind => ?_, hs.emptied.of_removeNode⟩⟩
      · have hdelete : deleteNode x r = .ok b.data ⟨g, .removeNode x :: r.history⟩ := by
          simp [deleteNode, act, hrun]
        simpa [deleteAll, hdelete] using hrest
      · rw [hs.issued kind]
        cases kind <;> rfl

end Recorded

/-! ### Worlds -/

namespace World

/-- In all worlds, clearing a graph and deleting all its nodes in any order empty it both, and leave
graphs that are indistinguishable. -/
theorem clear_indistinguishable (supply : IdSupply) (steps : List (Step N E)) :
    ∀ r ∈ ((start supply).run steps).graphs, ∃ nodes, r.graph.nodeList = .ok nodes ∧
      ∀ order : List NodeHandle, order.Perm nodes → ∃ cleared deleted,
        Recorded.clear r = .ok () cleared ∧ Recorded.deleteAll order r = .ok () deleted ∧
        r.Emptied cleared ∧ r.Emptied deleted ∧ cleared.Indistinguishable deleted := by
  intro r hr
  obtain ⟨V, h, hreg⟩ := registered_run supply steps r hr
  refine ⟨_, h.nodeList_run, fun order horder => ?_⟩
  obtain ⟨cleared, W, hclear, hcleared⟩ := Recorded.clear_empties h hreg
  obtain ⟨deleted, W', hdelete, hdeleted⟩ := Recorded.deleteAll_empties h hreg horder
  exact ⟨cleared, deleted, hclear, hdelete, hcleared.graph h, hdeleted.graph h,
    hcleared.indistinguishable hdeleted⟩

/-- A world in which a graph has a ring of three nodes, of which one is marked. -/
def withRing : World Nat Nat :=
  let node (uid : Nat) : NodeHandle := ⟨⟨0⟩, uid, ⟨uid, 0⟩⟩
  (start {}).run [.create ⟨1, 2⟩, .call 0 (.newNode 5), .call 0 (.newNode 6), .call 0 (.newNode 7),
    .call 0 (.newEdge (node 0) (node 1) 8), .call 0 (.newEdge (node 1) (node 2) 9),
    .call 0 (.newEdge (node 2) (node 0) 10), .call 0 .newMarker]

/-- A ring of three nodes is cleared, or its nodes are deleted one by one, and what follows is the
same. -/
theorem clear_indistinguishable_withRing : ∃ h : 0 < withRing.graphs.length,
    let r := withRing.graphs[0]
    ∃ nodes, r.graph.nodeList = .ok nodes ∧ nodes.length = 3 ∧ ∃ cleared deleted,
      Recorded.clear r = .ok () cleared ∧ Recorded.deleteAll nodes.reverse r = .ok () deleted ∧
      r.Emptied cleared ∧ r.Emptied deleted ∧ cleared.Indistinguishable deleted := by
  have h : 0 < withRing.graphs.length := by decide +kernel
  have hlength : withRing.graphs[0].graph.nodeList.map List.length = .ok 3 := by
    decide +kernel +revert
  obtain ⟨nodes, hrun, hall⟩ := clear_indistinguishable {} _ _ (List.getElem_mem h)
  rw [hrun] at hlength
  exact ⟨h, nodes, hrun, Except.ok.inj hlength, hall nodes.reverse nodes.reverse_perm⟩

end World

end SlabGraph
