import Mathlib.Data.List.Sort
import SlabGraph.Proofs.Handles
import SlabGraph.Proofs.History.Attachments
import SlabGraph.Proofs.History.Writes
import SlabGraph.Proofs.Listing

/-!
# The Order of the Lists

The order in which a graph lists its entities is a matter of its history alone. Nodes and edges
come in the order of their ids, the newest first. The incoming and the outgoing edges of a node come
in the order in which they were attached to it, the latest first, where an edge is attached again
by every call that moves its end, also to the node it was at before (`Recorded.Listed`). So no
list says anything about slots, about failed calls or about what was deleted.

A deletion takes entities out of the lists and leaves the others in their order
(`Recorded.KeepsOrder`). This follows from what the lists are: a deletion attaches nothing and
changes no ids, and a list with given members is determined by its order.

## Main definitions

* `Walk.along`, `Recorded.Listed`, `Call.deletes`, `Recorded.KeepsOrder`.

## Main results

* `World.listed`.
-/

namespace SlabGraph

variable {N E : Type}

/-- The walk over the `dir` list of a node. -/
def Walk.along : Direction → Walk
  | .up => .incoming
  | .down => .outgoing

/-- The walk over one list of a node. -/
theorem Graph.Holds.walkAlong_run {g : Graph N E} {V : View N E} (h : Holds g V)
    {node : NodeHandle} {b : Body Unit N} (hb : V.nodes.find? V.id node = some b)
    (dir : Direction) :
    g.walkEdges node (.along dir) = .ok ((V.inc node.slot dir).map V.edgeAt) := by
  rw [h.walkEdges_run hb]
  cases dir <;> rfl

/-- A list is determined by its members, if they come with decreasing keys. -/
theorem eq_of_decreasing {α : Type} (key : α → Nat) {xs ys : List α}
    (hxs : xs.Pairwise fun a b => key b < key a) (hys : ys.Pairwise fun a b => key b < key a)
    (hmem : ∀ a, a ∈ xs ↔ a ∈ ys) : xs = ys := by
  have : Std.Irrefl fun a b : α => key b < key a := ⟨fun a => Nat.lt_irrefl (key a)⟩
  have : Std.Antisymm fun a b : α => key b < key a :=
    ⟨fun a b hab hba => absurd hab (Nat.lt_asymm hba)⟩
  exact hxs.eq_of_mem_iff hys hmem

/-! ### Deletions -/

namespace Deed

/-- Whether a deed takes entities out of the graph. -/
def deletes : Deed N E → Bool
  | .removeNode _ | .removeEdge _ | .clear => true
  | _ => false

/-- A deed that takes something out of a graph attaches no edge. -/
theorem attaches_of_deletes {deed : Deed N E} (h : deed.deletes = true) (edge : EdgeHandle)
    (dir : Direction) : deed.attaches edge dir = false := by
  cases deed <;> first | rfl | cases h

end Deed

namespace History

variable {deeds past : History N E}

/-- A node that is live after deletions was live before. -/
theorem NodeLive.of_deletes {node : NodeHandle} (hdeeds : ∀ deed ∈ deeds, deed.deletes = true)
    (h : NodeLive node (deeds ++ past)) : NodeLive node past := by
  induction deeds with
  | nil => exact h
  | cons deed deeds ih =>
      have hdeed := hdeeds deed List.mem_cons_self
      refine ih (fun deed' hdeed' => hdeeds deed' (List.mem_cons_of_mem deed hdeed')) ?_
      cases deed with
      | removeNode removed => exact h.2
      | removeEdge removed => exact h
      | clear => exact h.elim
      | _ => cases hdeed

/-- An edge that is live after deletions was live before. -/
theorem EdgeLive.of_deletes {edge : EdgeHandle} (hdeeds : ∀ deed ∈ deeds, deed.deletes = true)
    (h : EdgeLive edge (deeds ++ past)) : EdgeLive edge past := by
  induction deeds with
  | nil => exact h
  | cons deed deeds ih =>
      have hdeed := hdeeds deed List.mem_cons_self
      refine ih (fun deed' hdeed' => hdeeds deed' (List.mem_cons_of_mem deed hdeed')) ?_
      cases deed with
      | removeNode removed => exact h.2
      | removeEdge removed => exact h.2
      | clear => exact h.elim
      | _ => cases hdeed

/-- Deletions do not move the ends of edges. -/
theorem edgeEnd?_of_deletes (hdeeds : ∀ deed ∈ deeds, deed.deletes = true) (edge : EdgeHandle)
    (dir : Direction) : edgeEnd? edge dir (deeds ++ past) = edgeEnd? edge dir past := by
  induction deeds with
  | nil => rfl
  | cons deed deeds ih =>
      have hdeed := hdeeds deed List.mem_cons_self
      rw [← ih fun deed' hdeed' => hdeeds deed' (List.mem_cons_of_mem deed hdeed')]
      cases deed with
      | removeNode | removeEdge | clear => rfl
      | _ => cases hdeed

end History

/-- Whether a call is to delete something. -/
def Call.deletes : Call N E → Bool
  | .deleteNode _ | .deleteEdge _ | .clear => true
  | _ => false

/-- A call that deletes writes no deeds but deletions. -/
theorem Call.deletes_of_mayWrite {call : Call N E} (hcall : call.deletes = true)
    {deed : Deed N E} (h : call.MayWrite deed) : deed.deletes = true := by
  cases call with
  | deleteNode | deleteEdge | clear =>
      obtain rfl := h
      rfl
  | _ => cases hcall

/-! ### Lists in order -/

namespace Recorded

/-- The lists of a graph are what its history says, in the order that it says. -/
structure Listed (r : Recorded N E) : Prop where
  /-- The live nodes, the one with the greatest id first. -/
  nodes : ∃ xs, r.graph.nodeList = .ok xs ∧ (xs.Pairwise fun x y => y.uid < x.uid) ∧
    ∀ x, x ∈ xs ↔ History.NodeLive x r.history
  /-- The live edges, the one with the greatest id first. -/
  edges : ∃ xs, r.graph.edgeList = .ok xs ∧ (xs.Pairwise fun x y => y.uid < x.uid) ∧
    ∀ x, x ∈ xs ↔ History.EdgeLive x r.history
  /-- The edges with a node at one end, the one that was attached last first. -/
  incident : ∀ node, History.NodeLive node r.history → ∀ dir, ∃ es,
    r.graph.walkEdges node (.along dir) = .ok es ∧
    (es.Pairwise fun e f => History.lastAttached f dir.rev r.history <
      History.lastAttached e dir.rev r.history) ∧
    ∀ e, e ∈ es ↔ History.EdgeLive e r.history ∧
      History.edgeEnd? e dir.rev r.history = some node

/-- Of the lists of a graph, another one has what is left of them. -/
structure KeepsOrder (r r' : Recorded N E) : Prop where
  nodes : ∀ xs, r.graph.nodeList = .ok xs →
    r'.graph.nodeList = .ok (xs.filter r'.graph.containsNode)
  edges : ∀ xs, r.graph.edgeList = .ok xs →
    r'.graph.edgeList = .ok (xs.filter r'.graph.containsEdge)
  incident : ∀ node, r'.graph.containsNode node = true → ∀ dir es,
    r.graph.walkEdges node (.along dir) = .ok es →
    r'.graph.walkEdges node (.along dir) = .ok (es.filter r'.graph.containsEdge)

variable {r r' : Recorded N E} {V : View N E}

/-- The lists of a graph are in the order of its history, if its view agrees with the history about
handles and about the order of attachments. -/
theorem listed_of_holds (h : Graph.Holds r.graph V) (hreg : V.Registered r.history)
    (horder : V.AttachedInOrder r.history) : r.Listed where
  nodes := by
    refine ⟨_, h.nodeList_run, h.consistent.nodes.handles_newest_first .node V.id, fun x => ?_⟩
    rw [h.consistent.nodes.mem_handles, hreg.nodes.live_iff]
  edges := by
    refine ⟨_, h.edgeList_run, h.consistent.edges.handles_newest_first .edge V.id, fun x => ?_⟩
    rw [h.consistent.edges.mem_handles, hreg.edges.live_iff]
  incident node hlive dir := by
    obtain ⟨c, hc⟩ := hreg.nodes.exists_body hlive
    refine ⟨_, h.walkAlong_run hc dir, List.pairwise_map.2 (horder node.slot dir), fun x => ?_⟩
    rw [List.mem_map, ← hreg.edges.live_iff, Option.isSome_iff_exists]
    constructor
    · rintro ⟨e, he, rfl⟩
      obtain ⟨b, hb, hend⟩ := h.consistent.body_of_mem_inc he
      have hfind := View.find?_edgeAt hb
      exact ⟨⟨b, hfind⟩, (hreg.edgeEnd?_eq_iff hfind hc dir.rev).2 hend⟩
    · rintro ⟨⟨b, hb⟩, hend⟩
      obtain ⟨hbody, hx⟩ := Population.find?_eq_some_iff.1 hb
      refine ⟨x.slot, (h.consistent.inc_iff _ dir _).2 ⟨b, hbody, ?_⟩,
        (View.edgeAt_eq hbody).trans hx.symm⟩
      exact (hreg.edgeEnd?_eq_iff hb hc dir.rev).1 hend

/-- Lists in order are what is left of longer lists in order, if nothing was added or attached
in between. -/
theorem keepsOrder (h : r.Listed) (h' : r'.Listed) (hfaithful : r'.Faithful)
    {deeds : History N E} (hhistory : r'.history = deeds ++ r.history)
    (hdeeds : ∀ deed ∈ deeds, deed.deletes = true) : r.KeepsOrder r' := by
  -- deletions change neither the ends nor the times of the edges that they leave
  have hend : ∀ edge dir, History.edgeEnd? edge dir (deeds ++ r.history) =
      History.edgeEnd? edge dir r.history := History.edgeEnd?_of_deletes hdeeds
  have hlast : ∀ edge dir, History.lastAttached edge dir (deeds ++ r.history) =
      History.lastAttached edge dir r.history := fun edge dir =>
    History.lastAttached_append fun deed hdeed =>
      Deed.attaches_of_deletes (hdeeds deed hdeed) edge dir
  have hnode : ∀ x, History.NodeLive x r'.history → History.NodeLive x r.history := fun x hx =>
    History.NodeLive.of_deletes hdeeds (hhistory ▸ hx)
  have hedge : ∀ x, History.EdgeLive x r'.history → History.EdgeLive x r.history := fun x hx =>
    History.EdgeLive.of_deletes hdeeds (hhistory ▸ hx)
  -- two decreasing lists with the same elements are equal, for each kind of list
  refine ⟨fun xs hxs => ?_, fun xs hxs => ?_, fun node hlive dir es hes => ?_⟩
  · obtain ⟨xs', hxs', horder, hmem⟩ := h.nodes
    obtain rfl := Except.ok.inj (hxs'.symm.trans hxs)
    obtain ⟨ys, hys, horder', hmem'⟩ := h'.nodes
    rw [hys, eq_of_decreasing Handle.uid horder' (horder.filter _) fun x => ?_]
    rw [hmem', List.mem_filter, hmem, hfaithful.containsNode]
    exact ⟨fun hx => ⟨hnode x hx, hx⟩, And.right⟩
  · obtain ⟨xs', hxs', horder, hmem⟩ := h.edges
    obtain rfl := Except.ok.inj (hxs'.symm.trans hxs)
    obtain ⟨ys, hys, horder', hmem'⟩ := h'.edges
    rw [hys, eq_of_decreasing Handle.uid horder' (horder.filter _) fun x => ?_]
    rw [hmem', List.mem_filter, hmem, hfaithful.containsEdge]
    exact ⟨fun hx => ⟨hedge x hx, hx⟩, And.right⟩
  · have hlive' := (hfaithful.containsNode node).1 hlive
    obtain ⟨es', hes', horder, hmem⟩ := h.incident node (hnode node hlive') dir
    obtain rfl := Except.ok.inj (hes'.symm.trans hes)
    obtain ⟨fs, hfs, horder', hmem'⟩ := h'.incident node hlive' dir
    simp only [hhistory, hlast, hend] at horder' hmem'
    rw [hfs, eq_of_decreasing (History.lastAttached · dir.rev r.history) horder'
      (horder.filter _) fun x => ?_]
    rw [hmem', List.mem_filter, hmem, hfaithful.containsEdge, hhistory]
    exact ⟨fun hx => ⟨⟨hedge x (hhistory ▸ hx.1), hx.2⟩, hx.1⟩, fun hx => ⟨hx.2, hx.1.2⟩⟩

end Recorded

/-! ### Worlds -/

namespace World

/-- Every graph of every world lists its nodes and edges in the order of their ids, and the edges
of a node in the order of their attachment, the latest first. A deletion leaves what is left in
this order. -/
theorem listed (supply : IdSupply) (steps : List (Step N E)) :
    ∀ r ∈ ((start supply).run steps).graphs, r.Listed ∧
      ∀ call : Call N E, call.deletes = true → r.KeepsOrder (call.run.after r) := by
  intro r hr
  obtain ⟨V, h, hreg, horder⟩ := exists_view
    (I := fun V past => V.Registered past ∧ V.AttachedInOrder past)
    (fun id n m l k => ⟨.blank id n m l k, .blank id n m l k⟩)
    (fun hc hI hmove => ⟨hI.1.move hc hmove, hI.2.move hc hmove⟩)
    (fun hI hretagged => ⟨hI.1.retag hretagged, hI.2.retag hretagged⟩)
    steps (forall_start supply) r hr
  refine ⟨Recorded.listed_of_holds h hreg horder, fun call hcall => ?_⟩
  obtain ⟨V', deeds, h', hhistory, hmoves⟩ := call.legal_run r V h
  obtain ⟨-, hreg', horder'⟩ := hmoves.preserves
    (I := fun V past => V.Registered past ∧ V.AttachedInOrder past) h.consistent
    (fun hc hI hmove => ⟨hI.1.move hc hmove, hI.2.move hc hmove⟩) ⟨hreg, horder⟩
  rw [← hhistory] at hreg' horder'
  obtain ⟨written, hwritten, hmay⟩ := call.writes_run r
  exact Recorded.keepsOrder (Recorded.listed_of_holds h hreg horder)
    (Recorded.listed_of_holds h' hreg' horder')
    (Recorded.faithful h' hreg') hwritten fun deed hdeed =>
      Call.deletes_of_mayWrite hcall (hmay deed hdeed)

/-- A world with two parallel edges, of which the older one was moved to where it ended before. -/
def withParallels : World Nat Nat :=
  let pred : NodeHandle := ⟨⟨0⟩, 0, ⟨0, 0⟩⟩
  let succ : NodeHandle := ⟨⟨0⟩, 1, ⟨1, 0⟩⟩
  (start {}).run [.create ⟨1, 1⟩, .call 0 (.newNode 5), .call 0 (.newNode 6),
    .call 0 (.newEdge pred succ 7), .call 0 (.newEdge pred succ 8),
    .call 0 (.setEnd ⟨⟨0⟩, 0, ⟨0, 0⟩⟩ .down succ)]

/-- Of two parallel edges, the older one was moved to where it ended before. It is the first one
there now, and still the second one where it begins. -/
theorem listed_withParallels : ∃ h : 0 < withParallels.graphs.length,
    withParallels.graphs[0].graph.walkEdges ⟨⟨0⟩, 0, ⟨0, 0⟩⟩ .outgoing =
      .ok [⟨⟨0⟩, 1, ⟨1, 0⟩⟩, ⟨⟨0⟩, 0, ⟨0, 0⟩⟩] ∧
    withParallels.graphs[0].graph.walkEdges ⟨⟨0⟩, 1, ⟨1, 0⟩⟩ .incoming =
      .ok [⟨⟨0⟩, 0, ⟨0, 0⟩⟩, ⟨⟨0⟩, 1, ⟨1, 0⟩⟩] ∧
    withParallels.graphs[0].Listed ∧
    withParallels.graphs[0].KeepsOrder
      ((Call.run (.deleteEdge ⟨⟨0⟩, 1, ⟨1, 0⟩⟩)).after withParallels.graphs[0]) := by
  refine ⟨by decide +kernel, by decide +kernel, by decide +kernel, ?_, ?_⟩
  · exact (listed {} _ _ (List.getElem_mem _)).1
  · exact (listed {} _ _ (List.getElem_mem _)).2 _ rfl

end World

end SlabGraph
